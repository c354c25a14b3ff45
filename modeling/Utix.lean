import Utix.Audit.Anchored
import Utix.Audit.History
import Utix.Audit.Scoped
import Utix.Authorizations.Lifecycle
import Utix.Cache.Loads
import Utix.Cache.Refines
import Utix.Claimable.Predicate
import Utix.Fees.Breakdown
import Utix.Horizon.Request
import Utix.Idempotency.Conflict
import Utix.Ledger.Chronology
import Utix.Ledger.HonestRun
import Utix.Ledger.Tamper
import Utix.Lifecycle.Tables
import Utix.Liquidity.Calculator
import Utix.Ownership.AllOrNothing
import Utix.Ownership.Claims
import Utix.Pagination.Traversal
import Utix.Policy.Freeze
import Utix.Quota.Conservation
import Utix.Quota.Reentrant
import Utix.Reconciliation.Amounts
import Utix.Reconciliation.Atomic
import Utix.Reconciliation.Pending
import Utix.Replay.Predecessor
import Utix.Replay.Resumed
import Utix.Replay.Upcast
import Utix.Schema.Guardrails
import Utix.Sorting.MixedStatus
import Utix.Tickets.Custody
import Utix.Tickets.ReviewLaws
import Utix.Webhooks.Signing
import Utix.Workers.Execution
import Utix.Workers.Submit
import Utix.Workers.Waiters
