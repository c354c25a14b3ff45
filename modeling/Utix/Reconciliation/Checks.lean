import Utix.Ledger.Chain
import Utix.Lifecycle.Machine
import Utix.Reconciliation.Snapshot

/-!
# Reconciliation checks

`core/reconciliation/reconciliation.ts`: thirteen invariants, a check for each, and the report. A
check is a pure function of the snapshot and gives one finding for every record that violates its
invariant, with a hint at the cause.

`reconcile` passes all findings through `redact` at the end. A finding is a record of texts under
fixed keys, none of them sensitive, so this scrubs every text of the finding and does nothing else;
`Finding.redact` says that, and `redact_findings` that it is what `redact` does.

The texts are part of the model: the invariant, kind and severity of a finding, what was expected
and what was found, and the code, the confidence and the facts of the hint. A later module reads
some of them back, because the planner knows a record only by the identity that the report shows.
Each check first selects the records it is about by a boolean of its own (`unsettled`, `exhausted`,
`overdue`, `expired`), and what is proved about the report starts from these.
-/

namespace Utix.Reconciliation

open Js Telemetry List

/-- What the module takes from its environment. -/
structure Env extends Ledger.Runtime where
  /-- `a.localeCompare(b) <= 0` -/
  collates : JsString → JsString → Bool

/-! ### Invariants -/

/-- The ids of `RECONCILIATION_INVARIANTS`, in order. -/
inductive Invariant
  | ledgerEntryPresent
  | amountAgrees
  | singleLinePerAsset
  | jobStateDeclared
  | budgetConsistent
  | dedupeUnique
  | progress
  | claimFresh
  | countMatches
  | retention
  | notificationStateDeclared
  | identityUnique
  | operationSettles
deriving DecidableEq

inductive FindingKind
  | missing
  | duplicate
  | stale
  | inconsistent
deriving DecidableEq

def FindingKind.text : FindingKind → JsString
  | .missing => js "missing"
  | .duplicate => js "duplicate"
  | .stale => js "stale"
  | .inconsistent => js "inconsistent"

inductive FindingSeverity
  | info
  | warning
  | critical
deriving DecidableEq

def FindingSeverity.text : FindingSeverity → JsString
  | .info => js "info"
  | .warning => js "warning"
  | .critical => js "critical"

def defaultSeverity : FindingKind → FindingSeverity
  | .inconsistent => .critical
  | .duplicate => .warning
  | .stale => .warning
  | .missing => .info

namespace Invariant

/-- The id of an invariant. -/
def text : Invariant → JsString
  | .ledgerEntryPresent => js "balance.ledger_entry_present"
  | .amountAgrees => js "balance.amount_agrees"
  | .singleLinePerAsset => js "balance.single_line_per_asset"
  | .jobStateDeclared => js "worker_job.state_declared"
  | .budgetConsistent => js "worker_job.budget_consistent"
  | .dedupeUnique => js "worker_job.dedupe_unique"
  | .progress => js "worker_job.progress"
  | .claimFresh => js "idempotency.claim_fresh"
  | .countMatches => js "export_envelope.count_matches"
  | .retention => js "export_envelope.retention"
  | .notificationStateDeclared => js "notification.state_declared"
  | .identityUnique => js "notification.identity_unique"
  | .operationSettles => js "operation.settles"

def kind : Invariant → FindingKind
  | .ledgerEntryPresent => .missing
  | .amountAgrees => .inconsistent
  | .singleLinePerAsset => .duplicate
  | .jobStateDeclared => .inconsistent
  | .budgetConsistent => .inconsistent
  | .dedupeUnique => .duplicate
  | .progress => .stale
  | .claimFresh => .stale
  | .countMatches => .inconsistent
  | .retention => .stale
  | .notificationStateDeclared => .inconsistent
  | .identityUnique => .duplicate
  | .operationSettles => .stale

def repair : Invariant → JsString
  | .ledgerEntryPresent => js "Re-read the account from Horizon for this asset. If the ledger " ++
      js "has no entry, drop the cached line and re-run the balance view; if it does, re-cache " ++
      js "it. Never edit the stored amount by hand."
  | .amountAgrees => js "Treat the ledger as authoritative and re-cache the line. Investigate " ++
      js "the window between the last cache and the ledger close before assuming a bug in " ++
      js "either side."
  | .singleLinePerAsset => js "Keep the newest line per (account, asset), delete the rest, and " ++
      js "add a uniqueness guard at the write site that produced the duplicate."
  | .jobStateDeclared => js "Do not invent a status. Add the missing state to the lifecycle " ++
      js "table if it is genuinely needed, or move the job to the nearest declared state by " ++
      js "replaying its last known event."
  | .budgetConsistent => js "Dead-letter the job with its last error context instead of letting " ++
      js "it run again, or raise maxAttempts deliberately and record why."
  | .dedupeUnique => js "Keep the oldest pending job and cancel the others, then check the two " ++
      js "enqueue paths that used the same dedupe key without an idempotency key."
  | .progress => js "Call processJob(id) to run it, or retryJob(id) to reset its backoff. A job " ++
      js "past the deadline is a scheduling gap, not a handler bug."
  | .claimFresh => js "Run idempotency.sweep() and abandon claims whose work never started. Do " ++
      js "not hand-edit a record; a replay must be either a real outcome or absent."
  | .countMatches => js "Regenerate the export with a fresh idempotency key and treat the " ++
      js "stored envelope as untrustworthy; a truncated envelope looks valid to a consumer."
  | .retention => js "Purge the artifact through the export_envelope lifecycle (expire, then " ++
      js "purge) and confirm no consumer is serving the stored copy."
  | .notificationStateDeclared => js "Drop the unread entry and let the workflow republish it. " ++
      js "An undeclared state usually means a write site bypassed the lifecycle table."
  | .identityUnique => js "Keep the newest entry and delete the rest, then publish through a " ++
      js "single path so a dedupe key cannot be claimed twice."
  | .operationSettles => js "An operation left `started` was cut off mid-flight. Re-run the " ++
      js "read-only operation to produce a fresh terminal record; there is nothing to repair in " ++
      js "place."

/-- The invariants in the order in which they are checked. -/
def all : List Invariant :=
  [.ledgerEntryPresent, .amountAgrees, .singleLinePerAsset, .jobStateDeclared, .budgetConsistent,
    .dedupeUnique, .progress, .claimFresh, .countMatches, .retention, .notificationStateDeclared,
    .identityUnique, .operationSettles]

theorem mem_all (i : Invariant) : i ∈ all := by cases i <;> decide

end Invariant

/-! ### Findings -/

/-- The confidence of a hint. -/
inductive Confidence
  | likely
  | possible
deriving DecidableEq

def Confidence.text : Confidence → JsString
  | .likely => js "likely"
  | .possible => js "possible"

structure RootCauseHint where
  code : JsString
  confidence : Confidence
  hint : JsString
  evidence : Option (List JsString)
deriving DecidableEq

def cause (code : JsString) (confidence : Confidence) (hint : JsString)
    (evidence : List JsString) : RootCauseHint :=
  ⟨code, confidence, hint, if evidence = [] then none else some evidence⟩

/-- `ReconciliationFinding` -/
structure Finding where
  id : JsString
  invariant : Invariant
  severity : FindingSeverity
  subject : JsString
  recordId : JsString
  detail : JsString
  expected : Option JsString
  observed : Option JsString
  repair : JsString
  rootCause : RootCauseHint
deriving DecidableEq

/-- `scrubSecrets(value)`: `/\b[SM][A-Z2-7]{55}\b/g` -/
def scrubSecrets (value : JsString) : JsString :=
  replaceAll Audit.embeddedSecret redacted value

def scrubCause (cause : RootCauseHint) : RootCauseHint :=
  { cause with
    hint := scrubSecrets cause.hint
    evidence := cause.evidence.map (·.map scrubSecrets) }

/-- The id of a finding: its invariant and its record. -/
def findingId (invariant : Invariant) (recordId : JsString) : JsString :=
  invariant.text ++ js ":" ++ recordId

/-- What a check has to say about a record: the arguments of `finding`. Every check gives a cause,
none a severity. -/
structure Violation where
  invariant : Invariant
  subject : JsString
  recordId : JsString
  detail : JsString
  expected : Option JsString
  observed : Option JsString
  rootCause : RootCauseHint
deriving DecidableEq

def finding (v : Violation) : Finding where
  id := findingId v.invariant (scrubSecrets v.recordId)
  invariant := v.invariant
  severity := defaultSeverity v.invariant.kind
  subject := v.subject
  recordId := scrubSecrets v.recordId
  detail := scrubSecrets v.detail
  expected := v.expected.map scrubSecrets
  observed := v.observed.map scrubSecrets
  repair := v.invariant.repair
  rootCause := scrubCause v.rootCause

/-- A number in a text. -/
def numberText (n : ℤ) : JsString := (JsNum.ofInt n).text

/-- `Math.round(ms / 1_000)` -/
def seconds (ms : ℤ) : ℤ := (ms + 500) / 1000

/-- `duplicates(items, key)`, with the keys seen so far. -/
def duplicatesFrom {α : Type} (key : α → JsString) : List JsString → List α → List α
  | _, [] => []
  | seen, item :: items =>
    if key item ∈ seen then item :: duplicatesFrom key seen items
    else duplicatesFrom key (key item :: seen) items

/-- `duplicates(items, key)`: every item whose key an earlier item has. -/
def duplicates {α : Type} (items : List α) (key : α → JsString) : List α :=
  duplicatesFrom key [] items

variable {α : Type} {items : List α}

theorem mem_of_mem_duplicates {key : α → JsString} {item : α} (h : item ∈ duplicates items key) :
    item ∈ items := by
  rw [duplicates] at h
  generalize ([] : List JsString) = seen at h
  induction items generalizing seen with
  | nil => cases h
  | cons head items ih =>
    rw [duplicatesFrom] at h
    split at h
    · rcases mem_cons.1 h with rfl | h
      · exact mem_cons_self
      · exact mem_cons_of_mem _ (ih seen h)
    · exact mem_cons_of_mem _ (ih _ h)

/-- A key is reported if it comes twice, or once more after it was seen. -/
theorem exists_mem_duplicatesFrom {key : α → JsString} {k : JsString} {seen : List JsString} :
    (∃ item ∈ duplicatesFrom key seen items, key item = k) ↔
      1 < items.countP (key · = k) ∨ 0 < items.countP (key · = k) ∧ k ∈ seen := by
  induction items generalizing seen with
  | nil => simp [duplicatesFrom]
  | cons head items ih =>
    rw [duplicatesFrom, countP_cons]
    by_cases hk : key head = k
    · subst hk
      by_cases hseen : key head ∈ seen
      · simp [hseen]
      · rw [if_neg hseen, ih]
        simp only [decide_true, if_true, mem_cons, and_true, hseen, and_false, or_false]
        omega
    · split
      · simp [ih, hk]
      · simp [ih, hk, Ne.symm hk]

/-- **A key is found repeated exactly when two items have it.** -/
theorem exists_mem_duplicates {key : α → JsString} {k : JsString} :
    (∃ item ∈ duplicates items key, key item = k) ↔ 1 < items.countP (key · = k) := by
  rw [duplicates, exists_mem_duplicatesFrom]
  simp

/-! ### The checks -/

section Checks

variable (env : Env) (input : ReconciliationInput)

def missingLedgerCause (entry : StoredBalance) : RootCauseHint :=
  if input.ledgerBalances = [] then
    cause (js "ledger_read_empty") .likely
      (js "The snapshot carries no ledger entries at all, so the ledger read most likely failed " ++
        js "or was skipped. Do not drop any cached line on this evidence.")
      [js "stored_lines=" ++ numberText input.storedBalances.length, js "ledger_lines=0"]
  else
    let otherAssets := input.ledgerBalances.filter fun line ↦ line.account = entry.account
    if otherAssets ≠ [] then
      cause (js "trustline_removed") .likely
        (js "The ledger still reports " ++ numberText otherAssets.length ++
          js " other asset line(s) for this account but not " ++ entry.asset ++
          js "; the trustline was probably removed after the line was cached.")
        [js "ledger_assets_for_account=" ++ numberText otherAssets.length]
    else
      cause (js "account_not_loaded") .possible
        (js "The ledger snapshot holds nothing for this account. It may have been merged or " ++
          js "never funded, or the read was partial; re-read the account before acting.")
        [js "ledger_lines_for_account=0"]

/-- `amountDriftCause(input, entry, reference)` with `STELLAR_DECIMALS` -/
def amountDriftCause (entry : StoredBalance) (reference : LedgerBalance) : RootCauseHint :=
  if 7 < fractionDigits entry.balance ∨ 7 < fractionDigits reference.balance then
    cause (js "precision_mismatch") .likely
      (js "One side carries more than 7 decimal places; the amount was probably converted " ++
        js "through a float or a different scale.")
      [js "stored_places=" ++ numberText (fractionDigits entry.balance),
        js "ledger_places=" ++ numberText (fractionDigits reference.balance)]
  else
    match entry.cachedAt.bind env.dateParse with
    | none =>
      cause (js "cache_age_unknown") .possible
        (js "The cached line has no usable cachedAt, so it cannot be told apart from an " ++
          js "ordinary stale cache. Record cachedAt at the write site.")
        [js "cached_at=unknown"]
    | some cachedAt =>
      let age := input.now - cachedAt
      if staleAfterOf input < age then
        cause (js "cache_stale") .likely
          (js "The line was cached " ++ numberText (seconds age) ++
            js "s ago, longer than the staleness window; the ledger has most likely moved since.")
          [js "cache_age_s=" ++ numberText (seconds age), js "reference=" ++ reference.reference]
      else
        cause (js "write_race") .possible
          (js "The line was cached recently and still disagrees: a ledger close between the " ++
            js "read and the cache write, or a read from a different network, is the likely " ++
            js "window.")
          [js "cache_age_s=" ++ numberText (max 0 (seconds age)),
            js "reference=" ++ reference.reference]

/-- `new Map(ledgerBalances …).get(key)`: the last entry with the key. -/
def ledgerEntry (key : JsString) : Option LedgerBalance :=
  input.ledgerBalances.reverse.find? fun entry ↦ entry.balanceKey = key

/-- The stored line has no ledger entry. -/
def unsettled (entry : StoredBalance) : Bool :=
  !input.ledgerBalances.any fun line ↦ line.balanceKey = entry.balanceKey

/-- The detail of a line without a ledger entry. -/
def ledgerEntryDetail (entry : StoredBalance) : JsString :=
  js "No ledger entry for " ++ entry.asset ++ js " on " ++ entry.account ++
    js "; the stored line cannot be settled."

/-- The check `balance.ledger_entry_present` -/
def checkLedgerEntryPresent : List Violation :=
  (input.storedBalances.filter (unsettled input)).map fun entry ↦
    .mk .ledgerEntryPresent (js "stored_balance") entry.balanceKey (ledgerEntryDetail entry)
      none none (missingLedgerCause input entry)

/-- The detail of a line that disagrees with the ledger. -/
def amountDetail (entry : StoredBalance) (reference : LedgerBalance) : JsString :=
  js "Stored " ++ entry.asset ++ js " balance disagrees with ledger reference " ++
    reference.reference ++ js "."

/-- The check `balance.amount_agrees` -/
def checkAmountAgrees : List Violation :=
  input.storedBalances.filterMap fun entry ↦
    match ledgerEntry input entry.balanceKey with
    | none => none
    | some reference =>
      if amountsEqual entry.balance reference.balance then none
      else
        some (.mk .amountAgrees (js "stored_balance") entry.balanceKey
          (amountDetail entry reference) (some reference.balance) (some entry.balance)
          (amountDriftCause env input entry reference))

def linesOf (key : JsString) : List StoredBalance :=
  input.storedBalances.filter fun line ↦ line.balanceKey = key

/-- The detail of a repeated line. -/
def singleLineDetail (entry : StoredBalance) : JsString :=
  js "Asset held on more than one line for " ++ entry.account ++ js "."

/-- The check `balance.single_line_per_asset` -/
def checkSingleLine : List Violation :=
  (duplicates input.storedBalances StoredBalance.balanceKey).map fun entry ↦
    let lines := linesOf input entry.balanceKey
    let amounts := (lines.map fun line ↦ trim line.balance).dedup
    .mk .singleLinePerAsset (js "stored_balance") entry.balanceKey (singleLineDetail entry)
      none none
      (if 1 < amounts.length then
        cause (js "concurrent_cache_write") .likely
          (js "The duplicate lines hold different amounts, so two writers cached the same asset " ++
            js "at different times without a uniqueness guard.")
          [js "lines=" ++ numberText lines.length,
            js "distinct_amounts=" ++ numberText amounts.length]
      else
        cause (js "duplicate_write_path") .possible
          (js "The duplicate lines are identical; one write path most likely appended instead " ++
            js "of replacing.")
          [js "lines=" ++ numberText lines.length])

def legacyJobStatuses : List (JsString × JsString) :=
  [(js "pending", js "queued"), (js "failed", js "dead_lettered"), (js "completed", js "succeeded"),
    (js "done", js "succeeded"), (js "in_progress", js "running")]

/-- The text of `LEGACY_JOB_STATUSES[status]`. The table inherits the names of a plain object. -/
def legacyJobStatus (status : JsString) : Option JsString :=
  legacyJobStatuses.lookup status <|>
    if status ∈ prototypeKeys then some (prototypeText status) else none

/-- The check `worker_job.state_declared` -/
def checkJobState : List Violation :=
  (input.jobs.filter fun job ↦ !Lifecycle.isState Lifecycle.workerJobMachine job.status).map
    fun job ↦
      .mk .jobStateDeclared (js "worker_job") job.id
        (js "Job status is not a declared lifecycle state.") none (some job.status)
        (match legacyJobStatus job.status with
        | some current =>
          cause (js "legacy_status") .likely
            (js "\"" ++ job.status ++
              js "\" is a status an older or newer build wrote; it maps to " ++ current ++
              js " in the current lifecycle.")
            [js "maps_to=" ++ current]
        | none =>
          cause (js "bypassed_lifecycle") .possible
            (js "A write site set the status directly instead of applying a lifecycle event.") [])

/-- A declared, not terminal status with the whole budget used. -/
def JobPayload.exhausted (job : JobPayload) : Bool :=
  Lifecycle.isState Lifecycle.workerJobMachine job.status &&
    !Lifecycle.isTerminal Lifecycle.workerJobMachine job.status && job.maxAttempts ≤ job.attempts

/-- The detail of an exhausted job. -/
def budgetDetail (job : JobPayload) : JsString :=
  js "Job used all " ++ numberText job.maxAttempts ++ js " attempts but is still " ++ job.status ++
    js "."

/-- The check `worker_job.budget_consistent` -/
def checkBudget : List Violation :=
  (input.jobs.filter JobPayload.exhausted).map fun job ↦
    .mk .budgetConsistent (js "worker_job") job.id (budgetDetail job)
      (some (js "a terminal state")) (some job.status)
      (match job.lastError with
      | some code =>
        cause (js "handler_failing") .likely
          (js "The handler keeps failing and the exhaust transition was never applied after the " ++
            js "last attempt.")
          [js "last_error=" ++ code, js "attempts=" ++ numberText job.attempts]
      | none =>
        cause (js "attempt_counter_drift") .possible
          (js "The attempt counter reached the budget with no recorded error, so the counter " ++
            js "was probably advanced outside the worker.")
          [js "attempts=" ++ numberText job.attempts,
            js "max_attempts=" ++ numberText job.maxAttempts])

def pendingJobs : List JobPayload := input.jobs.filter JobPayload.pending

/-- The pending jobs that repeat the dedupe key of an earlier one, with the key. -/
def repeatedJobs : List (JobPayload × JsString) :=
  duplicates ((pendingJobs input).filterMap fun job ↦ job.dedupeKey.map fun key ↦ (job, key))
    Prod.snd

/-- The detail of a job that repeats a dedupe key. -/
def dedupeDetail (key : JsString) : JsString :=
  js "Two pending jobs share dedupe key " ++ key ++ js "."

/-- The check `worker_job.dedupe_unique` -/
def checkDedupe : List Violation :=
  (repeatedJobs input).map fun (job, key) ↦
    let twins := (pendingJobs input).filter fun other ↦
      other.dedupeKey = job.dedupeKey ∧ other.id ≠ job.id
    let pendingWithKey := [js "pending_with_key=" ++ numberText (twins.length + 1)]
    .mk .dedupeUnique (js "worker_job") job.id (dedupeDetail key) none job.dedupeKey
      (if twins.any fun other ↦ other.correlationId = job.correlationId then
        cause (js "double_submit") .likely
          (js "Both jobs carry the same correlation id, so one request enqueued twice — usually " ++
            js "a retried submit without an idempotency key.") pendingWithKey
      else
        cause (js "missing_idempotency_key") .possible
          (js "Two independent enqueue paths used the same dedupe key; the dedupe check raced " ++
            js "because neither path claimed an idempotency key.") pendingWithKey)

/-- The job has been waiting for longer than it may. -/
def overdue (job : JobPayload) : Bool :=
  (env.dateParse (job.nextAttemptAt.getD job.enqueuedAt)).any fun at' ↦
    staleAfterOf input < input.now - at'

/-- The pending jobs that are overdue. -/
def staleJobs : List JobPayload := (pendingJobs input).filter (overdue env input)

/-- `stale.length > 1 && stale.length === pending.length` -/
def queueStalled : Bool :=
  1 < (staleJobs env input).length && (staleJobs env input).length = (pendingJobs input).length

/-- The detail of an overdue job. -/
def progressDetail (job : JobPayload) : JsString :=
  js "Job has been " ++ job.status ++ js " past its deadline."

/-- The check `worker_job.progress` -/
def checkProgress : List Violation :=
  (staleJobs env input).map fun job ↦
    .mk .progress (js "worker_job") job.id (progressDetail job) none (some job.status)
      (if queueStalled env input then
        cause (js "scheduler_not_draining") .likely
          (js "Every pending job is past its deadline, so no worker is draining the queue; " ++
            js "check the scheduler before touching any single job.")
          [js "stale=" ++ numberText (staleJobs env input).length,
            js "pending=" ++ numberText (pendingJobs input).length]
      else if job.status = js "retrying" then
        cause (js "backoff_not_rescheduled") .possible
          (js "Other jobs are moving, so this one's retry was most likely never rescheduled " ++
            js "after its backoff elapsed.")
          [js "attempts=" ++ numberText job.attempts]
      else
        cause (js "job_not_picked_up") .possible
          (js "Other jobs are moving, so this job was probably enqueued with a delay or to an " ++
            js "operation no handler is registered for.")
          [js "operation=" ++ job.operation])

/-- The record has outlived its TTL by this much; `none` if it has not, or has no usable expiry. -/
def IdempotencyRecord.expiredBy (record : IdempotencyRecord) : Option ℤ :=
  (env.dateParse record.expiresAt).bind fun expiresAt ↦
    if expiresAt < input.now then some (input.now - expiresAt) else none

/-- A claim in flight that nobody has settled. -/
def IdempotencyRecord.unsettled (record : IdempotencyRecord) : Bool :=
  (env.dateParse record.expiresAt).isSome && record.status = .inFlight &&
    (env.dateParse record.createdAt).any (· < input.now) && record.replays = 0

/-- The check `idempotency.claim_fresh` -/
def checkClaims : List Violation :=
  input.idempotencyRecords.filterMap fun record ↦
    match record.expiredBy env input with
    | some late =>
      some (.mk .claimFresh (js "idempotency_record") record.key
        (js "Expired " ++ record.status.text ++ js " record was never swept.")
        (some (js "swept")) (some record.status.text)
        (cause (js "sweep_not_scheduled") .likely
          (js "The record outlived its TTL, so idempotency.sweep() has not run since it expired.")
          [js "expired_s=" ++ numberText (seconds late)]))
    | none =>
      if record.unsettled env input then
        some (.mk .claimFresh (js "idempotency_record") record.key (js "Claim never settled.")
          none none
          (cause (js "claim_abandoned") .possible
            (js "The claim is still in flight with no replay; the process that claimed it most " ++
              js "likely crashed before recording an outcome. The work may still be running.")
            [js "operation=" ++ record.operation]))
      else none

/-- The check `export_envelope.count_matches` -/
def checkEnvelopeCounts : List Violation :=
  (input.exportEnvelopes.filter fun envelope ↦ envelope.recordCount ≠ envelope.records).map
    fun envelope ↦
      .mk .countMatches (js "export_envelope") envelope.correlationId
        (js "Envelope recordCount does not match the records it carries.")
        (some (numberText envelope.records)) (some (numberText envelope.recordCount))
        (if (envelope.records : ℤ) < envelope.recordCount then
          cause (js "truncated_write") .likely
            (js "The envelope carries fewer records than it declares, so the write was cut off " ++
              js "after the header was sealed.")
            [js "missing_records=" ++ numberText (envelope.recordCount - envelope.records)]
        else
          cause (js "count_not_updated") .likely
            (js "The envelope carries more records than it declares, so records were appended " ++
              js "after the header was sealed.")
            [js "extra_records=" ++ numberText ((envelope.records : ℤ) - envelope.recordCount)])

/-- The envelope is past its expiry. -/
def ExportEnvelope.expired (envelope : ExportEnvelope) : Bool :=
  (env.dateParse envelope.expiresAt).any (· < input.now)

/-- The check `export_envelope.retention` -/
def checkRetention : List Violation :=
  (input.exportEnvelopes.filter fun envelope ↦ envelope.expired env input).map fun envelope ↦
    .mk .retention (js "export_envelope") envelope.correlationId
      (js "Envelope is past its expiry and still stored.") none none
      (cause (js "retention_sweep_missing") .likely
        (js "The envelope passed expiresAt and was never expired through its lifecycle, so the " ++
          js "retention sweep is not running.") [])

/-- The state of the notification is not declared. -/
def Notification.undeclared (notification : Notification) : Bool :=
  !Lifecycle.isState Lifecycle.notificationMachine notification.state

/-- The check `notification.state_declared` -/
def checkNotificationState : List Violation :=
  (input.notifications.filter Notification.undeclared).map fun notification ↦
    .mk .notificationStateDeclared (js "notification") notification.id
      (js "Notification state is not declared.") none (some notification.state)
      (cause (js "bypassed_lifecycle") .likely
        (js "A write site set the state directly instead of applying a notification lifecycle " ++
          js "event.") [])

/-- `${notification.recipient}|${notification.id}` -/
def Notification.key (notification : Notification) : JsString :=
  keyOf notification.recipient notification.id

/-- The check `notification.identity_unique` -/
def checkNotificationIdentity : List Violation :=
  (duplicates input.notifications Notification.key).map fun notification ↦
    .mk .identityUnique (js "notification") notification.id
      (js "Two entries share one notification id.") none none
      (cause (js "double_publish") .likely
        (js "The same notification was published twice for one recipient, usually two workflows " ++
          js "reacting to one event without a shared dedupe key.") [])

/-- The operation is not known to have come to its end, and should have. -/
def OperationRecord.unsettled (record : OperationRecord) : Bool :=
  if Lifecycle.isTerminal Lifecycle.operationMachine record.state then false
  else if !Lifecycle.isState Lifecycle.operationMachine record.state then true
  else
    (env.dateParse record.startedAt).any fun at' ↦ staleAfterOf input < input.now - at'

/-- The detail of an operation that did not settle. -/
def operationDetail (record : OperationRecord) : JsString :=
  js "Operation " ++ record.op ++ js " never settled."

/-- The check `operation.settles` -/
def checkOperations : List Violation :=
  (input.operations.filter fun record ↦ record.unsettled env input).map fun record ↦
    .mk .operationSettles (js "operation") record.id (operationDetail record) none
      (some record.state)
      (if Lifecycle.isState Lifecycle.operationMachine record.state then
        cause (js "process_interrupted") .possible
          (js "The operation started and never recorded an outcome; the tab or process was most " ++
            js "likely closed mid-flight.") []
      else
        cause (js "unknown_state") .likely
          (js "The operation carries a state the operation lifecycle does not declare.") [])

/-- What the check of an invariant has to say, record by record. -/
def violations : Invariant → List Violation
  | .ledgerEntryPresent => checkLedgerEntryPresent input
  | .amountAgrees => checkAmountAgrees env input
  | .singleLinePerAsset => checkSingleLine input
  | .jobStateDeclared => checkJobState input
  | .budgetConsistent => checkBudget input
  | .dedupeUnique => checkDedupe input
  | .progress => checkProgress env input
  | .claimFresh => checkClaims env input
  | .countMatches => checkEnvelopeCounts input
  | .retention => checkRetention env input
  | .notificationStateDeclared => checkNotificationState input
  | .identityUnique => checkNotificationIdentity input
  | .operationSettles => checkOperations env input

/-- `check.run(input)` -/
def check (invariant : Invariant) : List Finding := (violations env input invariant).map finding

/-- What the checks find, in order. -/
def produced : List Finding := Invariant.all.flatMap (check env input)

end Checks

/-! ### The report -/

section

variable (cause : RootCauseHint)

/-- A hint with its texts scrubbed. -/
def RootCauseHint.redact : RootCauseHint where
  code := scrubString cause.code
  confidence := cause.confidence
  hint := scrubString cause.hint
  evidence := cause.evidence.map (·.map scrubString)

/-- A finding with its texts scrubbed. -/
def Finding.redact (f : Finding) : Finding where
  id := scrubString f.id
  invariant := f.invariant
  severity := f.severity
  subject := scrubString f.subject
  recordId := scrubString f.recordId
  detail := scrubString f.detail
  expected := f.expected.map scrubString
  observed := f.observed.map scrubString
  repair := scrubString f.repair
  rootCause := f.rootCause.redact

structure CheckResult where
  invariant : Invariant
  checked : ℕ
  findings : ℕ
deriving DecidableEq

structure ReconciliationReport where
  runId : JsString
  startedAt : JsString
  finishedAt : JsString
  checks : List CheckResult
  findings : List Finding
  summary : FindingKind → ℕ
  total : ℕ
  clean : Bool

def countsFor (input : ReconciliationInput) : Invariant → ℕ
  | .ledgerEntryPresent => input.storedBalances.length
  | .amountAgrees => input.storedBalances.length
  | .singleLinePerAsset => input.storedBalances.length
  | .jobStateDeclared => input.jobs.length
  | .budgetConsistent => input.jobs.length
  | .progress => input.jobs.length
  | .dedupeUnique => input.jobs.countP fun job ↦ job.dedupeKey.isSome
  | .claimFresh => input.idempotencyRecords.length
  | .countMatches => input.exportEnvelopes.length
  | .retention => input.exportEnvelopes.length
  | .notificationStateDeclared => input.notifications.length
  | .identityUnique => input.notifications.length
  | .operationSettles => input.operations.length

def countOf (items : List Finding) (kind : FindingKind) : ℕ :=
  items.countP fun item ↦ item.invariant.kind = kind

/-- **`reconcile(input, runId)`**; `none` is the exception of an invalid date. -/
def reconcile (env : Env) (input : ReconciliationInput) (runId : JsString) :
    Option ReconciliationReport := do
  let startedAt ← Date.toISOString input.now
  let findings := produced env input
  return {
    runId := runId
    startedAt := startedAt
    finishedAt := startedAt
    checks := Invariant.all.map fun invariant ↦
      ⟨invariant, countsFor input invariant, (check env input invariant).length⟩
    findings := findings.map Finding.redact
    summary := countOf findings
    total := findings.length
    clean := !findings.any fun entry ↦ entry.severity = .critical }

/-! ### What `redact` makes of a list of findings -/

/-- A text that may be missing. -/
def textValue : Option JsString → JsValue
  | none => .undefined
  | some text => .str text

/-- The object of a hint. -/
def RootCauseHint.toValue : JsValue :=
  .obj [(js "code", .str cause.code), (js "confidence", .str cause.confidence.text),
    (js "hint", .str cause.hint),
    (js "evidence", match cause.evidence with
      | none => .undefined
      | some facts => .arr (facts.map .str))]

/-- The object of a finding. -/
def Finding.toValue (f : Finding) : JsValue :=
  .obj [(js "id", .str f.id), (js "invariant", .str f.invariant.text),
    (js "kind", .str f.invariant.kind.text), (js "severity", .str f.severity.text),
    (js "subject", .str f.subject), (js "recordId", .str f.recordId), (js "detail", .str f.detail),
    (js "expected", textValue f.expected), (js "observed", textValue f.observed),
    (js "repair", .str f.repair), (js "rootCause", f.rootCause.toValue)]

/-- An optional text is scrubbed if it is there. -/
theorem redact_textValue (text : Option JsString) (depth : ℕ) :
    redact false depth (textValue text) = textValue (text.map scrubString) := by
  cases text <;> simp [textValue, redact]

theorem redactElems_str (facts : List JsString) (depth : ℕ) :
    redactElems false depth (facts.map .str) = (facts.map scrubString).map .str := by
  induction facts with
  | nil => rw [map_nil, redactElems, map_nil, map_nil]
  | cons fact facts ih =>
    rw [map_cons, redactElems, ih, redact, map_cons, map_cons]
    rfl

/-- A field under a plain key is redacted in its place. -/
theorem redactFields_cons {key : JsString} (hproto : key ≠ js "__proto__")
    (hkey : isSensitiveKey key = false) (depth : ℕ) (v : JsValue) (fs : Fields) :
    redactFields false depth ((key, v) :: fs) =
      (key, redact false depth v) :: redactFields false depth fs := by
  rw [redactFields, if_neg hproto, hkey]
  rfl

theorem redact_obj {depth : ℕ} (h : depth < maxRedactDepth) (fs : Fields) :
    redact false depth (.obj fs) = .obj (redactFields false (depth + 1) fs) := by
  rw [redact, if_neg (by omega)]

/-- The names of the invariants survive redaction. -/
theorem scrubString_invariant (i : Invariant) : scrubString i.text = i.text := by
  cases i <;> decide +kernel

theorem RootCauseHint.redact_toValue :
    Telemetry.redact false 2 cause.toValue = cause.redact.toValue := by
  have hconfidence : scrubString cause.confidence.text = cause.confidence.text := by
    cases cause.confidence <;> decide +kernel
  have hevidence : Telemetry.redact false 3 (match cause.evidence with
      | none => .undefined
      | some facts => .arr (facts.map .str)) =
      match cause.evidence.map (·.map scrubString) with
      | none => .undefined
      | some facts => .arr (facts.map .str) := by
    cases cause.evidence with
    | none => rw [Option.map_none, redact_undefined]
    | some facts =>
      rw [Option.map_some]
      simp only [Telemetry.redact, redactElems_str]
      rfl
  rw [toValue, redact_obj (by decide), redactFields_cons (by decide) (by decide +kernel),
    redactFields_cons (by decide) (by decide +kernel),
    redactFields_cons (by decide) (by decide +kernel),
    redactFields_cons (by decide) (by decide +kernel), redactFields, hevidence]
  simp only [Telemetry.redact, hconfidence]
  rfl

end

/-- **Redacting a report scrubs the texts of its findings**, and nothing else. -/
theorem redact_findings (findings : List Finding) :
    redact false 0 (.arr (findings.map Finding.toValue)) =
      .arr ((findings.map Finding.redact).map Finding.toValue) := by
  have hone : ∀ f : Finding, redact false 1 f.toValue = f.redact.toValue := by
    intro f
    have hkind : scrubString f.invariant.kind.text = f.invariant.kind.text := by
      cases f.invariant.kind <;> decide +kernel
    have hseverity : scrubString f.severity.text = f.severity.text := by
      cases f.severity <;> decide +kernel
    rw [Finding.toValue, redact_obj (by decide)]
    repeat rw [redactFields_cons (by decide) (by decide +kernel)]
    rw [redactFields, RootCauseHint.redact_toValue, redact_textValue, redact_textValue]
    simp only [redact, hkind, hseverity, scrubString_invariant]
    rfl
  have helems : ∀ fs : List Finding, redactElems false 1 (fs.map Finding.toValue) =
      (fs.map Finding.redact).map Finding.toValue := by
    intro fs
    induction fs with
    | nil => rw [map_nil, redactElems, map_nil, map_nil]
    | cons f fs ih =>
      rw [map_cons, redactElems, ih, hone, map_cons, map_cons]
  rw [redact, if_neg (by decide), helems]

end Utix.Reconciliation
