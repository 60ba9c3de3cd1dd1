import TrusTrove.Listener
import TrusTrove.Contract
import TrusTrove.Api
import TrusTrove.DeliveryWorker
import TrusTrove.WorkerFleet
import TrusTrove.WorkerLoop
import TrusTrove.RateLimiter
import TrusTrove.Challenge
import TrusTrove.Proofs.Writes
import TrusTrove.Proofs.Poll
import TrusTrove.Proofs.Paging
import TrusTrove.Proofs.Event
import TrusTrove.Proofs.Fanout
import TrusTrove.Proofs.Mirror
import TrusTrove.Proofs.ExactlyOnce
import TrusTrove.Proofs.InvoiceRow
import TrusTrove.Proofs.Refinement
import TrusTrove.Proofs.Confirmation
import TrusTrove.Proofs.PatchStatus
import TrusTrove.Proofs.Settled
import TrusTrove.Proofs.Restart
import TrusTrove.Proofs.RateLimit
import TrusTrove.Proofs.SingleUse
import TrusTrove.Proofs.Claim
import TrusTrove.Proofs.Exclusive
import TrusTrove.Proofs.RetryBudget
import TrusTrove.Proofs.Shutdown
import TrusTrove.Proofs.Window
import TrusTrove.Proofs.ReorgGuard
import TrusTrove.Proofs.Rollback
import TrusTrove.Proofs.Deliveries
import TrusTrove.Proofs.Announced
import TrusTrove.Netguard
import TrusTrove.CreateInvoice
import TrusTrove.Proofs.Egress
import TrusTrove.Proofs.Sequence
import TrusTrove.Lib.Json
import TrusTrove.RequestBody
import TrusTrove.Proofs.WriteFormats
import TrusTrove.Wallet
import TrusTrove.Proofs.Session
import TrusTrove.Lib.Interaction
import TrusTrove.SdkClient
import TrusTrove.Proofs.Broadcast
import TrusTrove.AsyncQuery
import TrusTrove.Proofs.NewestRun
import TrusTrove.Lib.TokenBucket
import TrusTrove.ClientLimiter
import TrusTrove.Proofs.ClientRate
import TrusTrove.Proofs.Backfill
import TrusTrove.JsValue
import TrusTrove.InvoiceParser
import TrusTrove.Proofs.ParsedInvoice
import TrusTrove.Lib.OffsetPaging
import TrusTrove.InvoicePages
import TrusTrove.Proofs.AllInvoices
import TrusTrove.Proofs.Applied
import TrusTrove.Timeline
import TrusTrove.Proofs.Timeline
import TrusTrove.SorobanRpc
import TrusTrove.Proofs.RpcRetry
import TrusTrove.Submission
import TrusTrove.Proofs.Submission
import TrusTrove.TxHistory
import TrusTrove.Proofs.TxHistory
import TrusTrove.SorobanXdr
import TrusTrove.Lib.Base32
import TrusTrove.Proofs.Codec
import TrusTrove.Proofs.CreateRequest
import TrusTrove.Proofs.CreatedRow
import TrusTrove.Proofs.PagePartition
import TrusTrove.RateHeaders
import TrusTrove.Proofs.RateHeaders
import TrusTrove.Lib.Fields
import TrusTrove.TrustedProxy
import TrusTrove.Proofs.TrustedProxy
import TrusTrove.Lib.Regex
import TrusTrove.Lib.Decimal
import TrusTrove.Amounts
import TrusTrove.Proofs.Amounts
import TrusTrove.MigrationNames
import TrusTrove.Proofs.MigrationNames
import TrusTrove.Lib.LockedTasks
import TrusTrove.MigrationRunner
import TrusTrove.Proofs.MigrationRunner
import TrusTrove.Lib.RowNumber
import TrusTrove.LegacyRows
import TrusTrove.Proofs.LegacyRows
import TrusTrove.WalletWatcher
import TrusTrove.Proofs.WalletWatcher
import TrusTrove.Proofs.KeySpelling
import TrusTrove.Proofs.FallbackParser
import TrusTrove.Lib.JsonWriter
import TrusTrove.JsJson
import TrusTrove.Proofs.JsJson
import TrusTrove.Notifications
import TrusTrove.Proofs.Notifications
import TrusTrove.Lib.StableOrder
import TrusTrove.Lib.Aggregate
import TrusTrove.Reads
import TrusTrove.Proofs.Aggregates
import TrusTrove.Proofs.ContractTotals
import TrusTrove.Proofs.EventFeed
import TrusTrove.Lib.TtlCache
import TrusTrove.ResponseCache
import TrusTrove.Proofs.ResponseCache
import TrusTrove.AuthToken
import TrusTrove.Proofs.AuthToken
import TrusTrove.Subscriptions
import TrusTrove.Proofs.Subscriptions
import TrusTrove.TokenAllowance
import TrusTrove.Proofs.TokenAllowance
import TrusTrove.Documents
import TrusTrove.Proofs.Documents
