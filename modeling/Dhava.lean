import Dhava.Proofs.Accounts
import Dhava.Proofs.Acknowledge
import Dhava.Proofs.AllOrNothing
import Dhava.Proofs.Attempts
import Dhava.Proofs.Attribution
import Dhava.Proofs.AuditExport
import Dhava.Proofs.AuditTrail
import Dhava.Proofs.Bandwidth
import Dhava.Proofs.CausalOrder
import Dhava.Proofs.CleanFailure
import Dhava.Proofs.Cli
import Dhava.Proofs.ClockContent
import Dhava.Proofs.Columns
import Dhava.Proofs.Compression
import Dhava.Proofs.Convergence
import Dhava.Proofs.Daemon
import Dhava.Proofs.Eligibility
import Dhava.Proofs.Exclusion
import Dhava.Proofs.Failover
import Dhava.Proofs.Keyless
import Dhava.Proofs.Ledger
import Dhava.Proofs.LinkMonitor
import Dhava.Proofs.Loopback
import Dhava.Proofs.Overflow
import Dhava.Proofs.OwnWrites
import Dhava.Proofs.PullRetry
import Dhava.Proofs.Quiescence
import Dhava.Proofs.Reassembly
import Dhava.Proofs.Reconcile
import Dhava.Proofs.Redelivery
import Dhava.Proofs.Registration
import Dhava.Proofs.RegistrationData
import Dhava.Proofs.Rejection
import Dhava.Proofs.ReplyBuffer
import Dhava.Proofs.Restart
import Dhava.Proofs.SelfAnswer
import Dhava.Proofs.SendQueue
import Dhava.Proofs.ServerLog
import Dhava.Proofs.ServerProcess
import Dhava.Proofs.SingleWriter
import Dhava.Proofs.Snapshot
import Dhava.Proofs.Sneakernet
import Dhava.Proofs.StoreQuery
import Dhava.Proofs.StoredRecord
import Dhava.Proofs.SummaryClock
import Dhava.Proofs.Versions
import Dhava.Spec.SyncNow
