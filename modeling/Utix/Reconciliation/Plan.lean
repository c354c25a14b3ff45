import Utix.Reconciliation.Checks

/-!
# Repair plans

The planning half of `core/reconciliation/repair.ts`. `planRepairs` goes through the findings of a
report, each identity once, and asks the strategy of its invariant for actions or for the reason why
there are none. Actions with one id are one action, which lists the findings of all of them. The
list is sorted by id.

A strategy may throw: a date may be invalid, and `reduce` fails on an empty list. `none` is such an
exception.

The ten strategies are functions with the names that the source gives to their actions. Each gets
the finding and looks its record up in the snapshot again; `manual` is a strategy's reason for not
acting, and such findings end up in the follow-ups of the plan. Two strategies also get
`terminalJobs`, the ids of the jobs that have used their attempts. The order of the actions is that
of `localeCompare` on their ids, which is a field of the environment.
-/

namespace Utix.Reconciliation

open Js Lib

/-! ### Actions -/

inductive RepairActionKind
  | recacheBalance
  | dropBalanceLine
  | dedupeBalanceLines
  | deadLetterJob
  | cancelDuplicateJob
  | requeueJob
  | sweepIdempotency
  | purgeEnvelope
  | dropNotification
  | collapseNotification
deriving DecidableEq

/-- The name of a kind. -/
def RepairActionKind.text : RepairActionKind → JsString
  | .recacheBalance => js "recache_balance"
  | .dropBalanceLine => js "drop_balance_line"
  | .dedupeBalanceLines => js "dedupe_balance_lines"
  | .deadLetterJob => js "dead_letter_job"
  | .cancelDuplicateJob => js "cancel_duplicate_job"
  | .requeueJob => js "requeue_job"
  | .sweepIdempotency => js "sweep_idempotency"
  | .purgeEnvelope => js "purge_envelope"
  | .dropNotification => js "drop_notification"
  | .collapseNotification => js "collapse_notification"

/-- `REPAIR_STRATEGIES`; `none` is `manual`. -/
def repairStrategies : Invariant → Option RepairActionKind
  | .ledgerEntryPresent => some .dropBalanceLine
  | .amountAgrees => some .recacheBalance
  | .singleLinePerAsset => some .dedupeBalanceLines
  | .jobStateDeclared => none
  | .budgetConsistent => some .deadLetterJob
  | .dedupeUnique => some .cancelDuplicateJob
  | .progress => some .requeueJob
  | .claimFresh => some .sweepIdempotency
  | .countMatches => none
  | .retention => some .purgeEnvelope
  | .notificationStateDeclared => some .dropNotification
  | .identityUnique => some .collapseNotification
  | .operationSettles => none

inductive RepairValue
  | text (s : JsString)
  | number (n : ℤ)
  | null
deriving DecidableEq

/-- A text that may be missing: `value ?? null`. -/
def RepairValue.orNull : Option JsString → RepairValue
  | none => .null
  | some s => .text s

/-- `Record<string, RepairValue>` -/
abbrev Values := Dict JsString RepairValue

/-- The risk of an action. -/
inductive Risk
  | low
  | medium
  | high
deriving DecidableEq

structure RepairAction where
  id : JsString
  kind : RepairActionKind
  findingIds : List JsString
  invariant : Invariant
  subject : JsString
  target : Values
  before : Values
  after : Values
  lifecycleEvent : Option JsString
  reversible : Bool
  risk : Risk
  rollback : JsString
deriving DecidableEq

/-- `${fields.kind}:${idTarget}` -/
def actionId (kind : RepairActionKind) (idTarget : JsString) : JsString :=
  kind.text ++ js ":" ++ idTarget

/-- What a strategy answers. -/
inductive Planned
  | actions (list : List RepairAction)
  | manual (reason : JsString)
deriving DecidableEq

/-- The fields that every action takes from its finding. -/
def Finding.action (f : Finding) (kind : RepairActionKind) (idTarget : JsString)
    (target before after : List (JsString × RepairValue)) (lifecycleEvent : Option JsString)
    (reversible : Bool) (risk : Risk) (rollback : JsString) : RepairAction where
  id := actionId kind idTarget
  kind := kind
  findingIds := [f.id]
  invariant := f.invariant
  subject := f.subject
  target := .ofList target
  before := .ofList before
  after := .ofList after
  lifecycleEvent := lifecycleEvent
  reversible := reversible
  risk := risk
  rollback := rollback

/-- The line an action is about. -/
def StoredBalance.target (line : StoredBalance) : List (JsString × RepairValue) :=
  [(js "account", .text line.account), (js "asset", .text line.asset)]

/-- `lines.map(…).join(",")` -/
def joined (texts : List JsString) : JsString := List.intercalate (js ",") texts

namespace Finding

variable (f : Finding)

/-- The action of `strategies.drop_balance_line` -/
def dropLineAction (line : StoredBalance) : RepairAction :=
  f.action .dropBalanceLine line.balanceKey line.target
    [(js "balance", .text line.balance), (js "cachedAt", .orNull line.cachedAt)]
    [(js "balance", .null)] none true .medium
    (js "Restore the cached line from `before`; the next balance view re-reads the ledger anyway.")

/-- The action of `strategies.recache_balance` -/
def recacheAction (line : StoredBalance) (ledger : LedgerBalance) (cachedAt : JsString) :
    RepairAction :=
  f.action .recacheBalance line.balanceKey line.target
    [(js "balance", .text line.balance), (js "cachedAt", .orNull line.cachedAt)]
    [(js "balance", .text ledger.balance), (js "reference", .text ledger.reference),
      (js "cachedAt", .text cachedAt)] none true .low
    (js "Write `before.balance` back; the ledger stays authoritative, so this only restores the " ++
      js "stale view.")

/-- The action of `strategies.dedupe_balance_lines` -/
def dedupeLinesAction (lines : List StoredBalance) (keep : StoredBalance) : RepairAction :=
  f.action .dedupeBalanceLines f.recordId keep.target
    [(js "lines", .number lines.length),
      (js "balances", .text (joined (lines.map StoredBalance.balance))),
      (js "cachedAt", .text (joined (lines.map fun line ↦ line.cachedAt.getD [])))]
    [(js "lines", .number 1), (js "balance", .text keep.balance),
      (js "cachedAt", .orNull keep.cachedAt)] none true .low
    (js "Re-insert the removed lines listed in `before`; then fix the write site before " ++
    js "re-running.")

/-- The action of `strategies.dead_letter_job` -/
def deadLetterAction (job : JobPayload) : RepairAction :=
  f.action .deadLetterJob job.id [(js "jobId", .text job.id)]
    [(js "status", .text job.status), (js "attempts", .number job.attempts),
      (js "maxAttempts", .number job.maxAttempts)]
    [(js "status", .text (js "dead_lettered"))] (some (js "dead_letter")) false .medium
    (js "Not revertible through the lifecycle. Re-enqueue a new job with the same params if the " ++
      js "work is still wanted.")

/-- The action of `strategies.cancel_duplicate_job` for one of the duplicates. -/
def cancelAction (keep entry : JobPayload) : RepairAction :=
  f.action .cancelDuplicateJob entry.id
    [(js "jobId", .text entry.id), (js "keepJobId", .text keep.id)]
    [(js "status", .text entry.status), (js "dedupeKey", .orNull entry.dedupeKey)]
    [(js "status", .text (js "dead_lettered"))] (some (js "dead_letter")) false .low
    (js "Not revertible through the lifecycle. The surviving job " ++ keep.id ++
      js " carries the same work.")

/-- The action of `strategies.requeue_job` -/
def requeueAction (job : JobPayload) (nextAttemptAt : JsString) : RepairAction :=
  f.action .requeueJob job.id [(js "jobId", .text job.id)]
    [(js "status", .text job.status), (js "nextAttemptAt", .orNull job.nextAttemptAt)]
    [(js "status", .text (js "queued")), (js "nextAttemptAt", .text nextAttemptAt)]
    (if job.status = js "retrying" then some (js "retry") else none) true .low
    (js "Restore `before.nextAttemptAt`; the job has not run yet, so there is no side effect to " ++
      js "undo.")

/-- The action of `strategies.sweep_idempotency` -/
def sweepAction (record : IdempotencyRecord) : RepairAction :=
  f.action .sweepIdempotency record.key [(js "key", .text record.key)]
    [(js "status", .text record.status.text), (js "expiresAt", .text record.expiresAt)]
    [(js "status", .null)] none false .low
    (js "None needed: the record was already expired and could not be replayed.")

/-- The action of `strategies.purge_envelope` -/
def purgeAction (envelope : ExportEnvelope) : RepairAction :=
  f.action .purgeEnvelope envelope.correlationId
    [(js "correlationId", .text envelope.correlationId)]
    [(js "expiresAt", .text envelope.expiresAt), (js "recordCount", .number envelope.recordCount)]
    [(js "state", .text (js "purged"))] (some (js "purge")) false .medium
    (js "Regenerate the export under a fresh idempotency key if a consumer still needs it.")

/-- The action of `strategies.drop_notification` for one of the entries. -/
def dropNotificationAction (entry : Notification) : RepairAction :=
  f.action .dropNotification entry.key
    [(js "recipient", .text entry.recipient), (js "id", .text entry.id)]
    [(js "state", .text entry.state)] [(js "state", .null)] none false .medium
    (js "Republish through the notification workflow; the entry's undeclared state is not " ++
    js "restored.")

/-- The action of `strategies.collapse_notification` for one of the recipients. -/
def collapseAction (recipient : JsString) (copies : ℕ) : RepairAction :=
  f.action .collapseNotification (keyOf recipient f.recordId)
    [(js "recipient", .text recipient), (js "id", .text f.recordId)]
    [(js "copies", .number copies)] [(js "copies", .number 1)] none false .low
    (js "None needed: the removed copies were identical by id.")

end Finding

/-! ### Strategies -/

section Strategies

variable (env : Env) (input : ReconciliationInput) (terminalJobs : List JsString) (f : Finding)

/-- What is said of a line that is not proven to be gone. -/
def lineNotProven : JsString :=
  js "refusing to drop a cached balance without proof the ledger was read for the account (cause: "

def dropBalanceLine : Planned :=
  if f.rootCause.code ≠ js "trustline_removed" then
    .manual (lineNotProven ++ f.rootCause.code ++ js ")")
  else
    match input.storedBalances.find? fun entry ↦ entry.balanceKey = f.recordId with
    | none => .manual (js "the stored line could not be located in the snapshot")
    | some line => .actions [f.dropLineAction line]

def recacheBalance : Option Planned :=
  match input.ledgerBalances.find? (fun entry ↦ entry.balanceKey = f.recordId),
      linesOf input f.recordId with
  | none, _ => some (.manual (js "the stored or ledger line could not be located in the snapshot"))
  | some _, [] => some (.manual
      (js "the stored or ledger line could not be located in the snapshot"))
  | some ledger, [line] =>
    (Date.toISOString input.now).map fun cachedAt ↦ .actions [f.recacheAction line ledger cachedAt]
  | some _, _ :: _ :: _ => some (.manual
      (js "the asset is held on more than one line; dedupe it first, then re-plan"))

/-- `line.cachedAt ? Date.parse(line.cachedAt) : Number.NEGATIVE_INFINITY` -/
def cacheTime (line : StoredBalance) : JsNum :=
  match line.cachedAt with
  | none => .infinite true
  | some text =>
    if text = [] then .infinite true
    else
      match env.dateParse text with
      | none => .nan
      | some t => .ofInt t

def newest : List StoredBalance → Option StoredBalance
  | [] => none
  | line :: lines => some (lines.foldl
      (fun best line ↦ if (cacheTime env best).less (cacheTime env line) then line else best) line)

def dedupeBalanceLines : Option Planned :=
  let lines := linesOf input f.recordId
  if lines.length < 2 then
    some (.manual (js "the duplicate lines could not be located in the snapshot"))
  else (newest env lines).map fun keep ↦ .actions [f.dedupeLinesAction lines keep]

/-- `input.jobs.find((entry) => entry.id === finding.recordId)` -/
def locateJob : Option JobPayload := input.jobs.find? fun entry ↦ entry.id = f.recordId

/-- What is said of a job that is not found. -/
def jobNotLocated : JsString := js "the job could not be located in the snapshot"

def deadLetterJob : Planned :=
  match locateJob input f with
  | none => .manual jobNotLocated
  | some job => .actions [f.deadLetterAction job]

/-- `Date.parse(job.enqueuedAt) < Date.parse(best.enqueuedAt)` -/
def enqueuedBefore (job best : JobPayload) : Bool :=
  match env.dateParse job.enqueuedAt, env.dateParse best.enqueuedAt with
  | some t, some u => t < u
  | _, _ => false

def oldestJob : List JobPayload → Option JobPayload
  | [] => none
  | job :: jobs => some (jobs.foldl
      (fun best job ↦ if enqueuedBefore env job best then job else best) job)

/-- The pending jobs with a dedupe key. -/
def dedupeGroup (key : JsString) : List JobPayload :=
  (pendingJobs input).filter fun entry ↦ entry.dedupeKey = some key

def cancelDuplicateJob : Option Planned :=
  match (locateJob input f).bind JobPayload.dedupeKey with
  | none => some (.manual jobNotLocated)
  | some key =>
    let group := dedupeGroup input key
    (oldestJob env group).map fun keep ↦
      let doomed := group.filter fun entry ↦ entry.id ≠ keep.id ∧ entry.id ∉ terminalJobs
      if doomed = [] then .manual (js "every duplicate is already being moved to a terminal state")
      else .actions (doomed.map (f.cancelAction keep))

def requeueJob : Option Planned :=
  match locateJob input f with
  | none => some (.manual jobNotLocated)
  | some job =>
    if job.id ∈ terminalJobs then
      some (.manual (js "the job is also being dead-lettered or cancelled by this plan"))
    else if f.rootCause.code = js "scheduler_not_draining" then
      some (.manual (js "no worker is draining the queue; restart the scheduler instead of " ++
        js "requeueing jobs one by one"))
    else
      (Date.toISOString input.now).map fun nextAttemptAt ↦
        .actions [f.requeueAction job nextAttemptAt]

def sweepIdempotency : Planned :=
  match input.idempotencyRecords.find? fun entry ↦ entry.key = f.recordId with
  | none => .manual (js "the record could not be located in the snapshot")
  | some record =>
    if (record.expiredBy env input).isNone then
      .manual (js "the claim has not expired and its work may still be running; abandon it only " ++
        js "after confirming")
    else .actions [f.sweepAction record]

def purgeEnvelope : Planned :=
  match input.exportEnvelopes.find? fun entry ↦ entry.correlationId = f.recordId with
  | none => .manual (js "the envelope could not be located in the snapshot")
  | some envelope => .actions [f.purgeAction envelope]

/-- `input.notifications.filter((entry) => entry.id === finding.recordId)` -/
def entriesOf (id : JsString) : List Notification :=
  input.notifications.filter fun entry ↦ entry.id = id

def dropNotification : Planned :=
  let entries := entriesOf input f.recordId
  if entries = [] then .manual (js "the notification could not be located in the snapshot")
  else .actions (entries.map f.dropNotificationAction)

/-- The recipients of a notification, in order, with the number of copies each has. -/
def copiesOf (id : JsString) : List (JsString × ℕ) :=
  ((entriesOf input id).map Notification.recipient).eraseDups.map fun recipient ↦
    (recipient, (entriesOf input id).countP fun entry ↦ entry.recipient = recipient)

def collapseNotification : Planned :=
  let groups := (copiesOf input f.recordId).filter fun group ↦ 1 < group.2
  if groups = [] then .manual (js "the duplicate entries could not be located in the snapshot")
  else .actions (groups.map fun (recipient, copies) ↦ f.collapseAction recipient copies)

/-- `strategies[kind](finding, context)` -/
def strategy : RepairActionKind → Option Planned
  | .dropBalanceLine => some (dropBalanceLine input f)
  | .recacheBalance => recacheBalance input f
  | .dedupeBalanceLines => dedupeBalanceLines env input f
  | .deadLetterJob => some (deadLetterJob input f)
  | .cancelDuplicateJob => cancelDuplicateJob env input terminalJobs f
  | .requeueJob => requeueJob input terminalJobs f
  | .sweepIdempotency => some (sweepIdempotency env input f)
  | .purgeEnvelope => some (purgeEnvelope input f)
  | .dropNotification => some (dropNotification input f)
  | .collapseNotification => some (collapseNotification input f)

/-- What is planned for a finding: the strategy of its invariant, unless there is none or the
identity of the record was scrubbed. -/
def plannedFor : Option Planned :=
  match repairStrategies f.invariant with
  | none => some (.manual (js "this invariant has no safe automatic repair"))
  | some kind =>
    if includes f.recordId Telemetry.redacted then
      some (.manual (js "the record identity contains a redacted secret; handle it as a " ++
        js "security incident"))
    else strategy env input terminalJobs f kind

end Strategies

/-! ### Plans -/

structure ManualFollowUp where
  findingId : JsString
  invariant : Invariant
  reason : JsString
  repair : JsString
deriving DecidableEq

/-- The local variables of the loop of `planRepairs`. -/
structure PlanState where
  actions : Dict JsString RepairAction
  manual : List ManualFollowUp
  seen : List JsString

/-- The action under its id, or the findings of a new one with it added to those of the old. -/
def PlanState.enter (actions : Dict JsString RepairAction) (entry : RepairAction) :
    Dict JsString RepairAction :=
  actions.set entry.id
    (match actions.get entry.id with
    | none => entry
    | some existing =>
      { existing with findingIds := (existing.findingIds ++ entry.findingIds).eraseDups })

section

variable (env : Env) (input : ReconciliationInput)

/-- The body of the loop of `planRepairs`. -/
def planFinding (terminalJobs : List JsString) (state : PlanState) (f : Finding) :
    Option PlanState :=
  if f.id ∈ state.seen then some state
  else
    (plannedFor env input terminalJobs f).map fun planned ↦
      match planned with
      | .manual reason =>
        { state with
          manual := state.manual ++ [⟨f.id, f.invariant, reason, f.repair⟩]
          seen := f.id :: state.seen }
      | .actions list =>
        { state with
          actions := list.foldl PlanState.enter state.actions
          seen := f.id :: state.seen }

/-- `terminalJobs` -/
def terminalJobsOf (findings : List Finding) : List JsString :=
  (findings.filter fun entry ↦ entry.invariant = .budgetConsistent).map Finding.recordId

/-- The value of an action as far as the fingerprint covers it. -/
def RepairValue.toValue : RepairValue → JsValue
  | .text s => .str s
  | .number n => .num (.ofInt n)
  | .null => .null

/-- The object of some values. -/
def valuesObject (values : Values) : JsValue :=
  .obj (values.entries.map fun entry ↦ (entry.1, entry.2.toValue))

def fingerprintOf (actions : List RepairAction) : Option JsString :=
  (Ledger.canonicalJson (.arr (actions.map fun entry ↦
    .obj [(js "id", .str entry.id), (js "kind", .str entry.kind.text),
      (js "target", valuesObject entry.target), (js "before", valuesObject entry.before),
      (js "after", valuesObject entry.after),
      (js "lifecycleEvent", (RepairValue.orNull entry.lifecycleEvent).toValue),
      (js "reversible", .bool entry.reversible)]))).map fun text ↦ (env.sha256Hex text).1

/-- `RepairPlan`, without its summary. -/
structure RepairPlan where
  planId : JsString
  runId : JsString
  createdAt : JsString
  expiresAt : JsString
  dryRun : Bool
  actions : List RepairAction
  manual : List ManualFollowUp
  fingerprint : JsString
deriving DecidableEq

/-- `PlanOptions`, with the id that the plan gets. -/
structure PlanOptions where
  planId : JsString
  now : Option ℤ
  ttlMs : Option ℤ

/-- The loop of `planRepairs`. -/
def planLoop (findings : List Finding) : Option PlanState :=
  findings.foldlM (planFinding env input (terminalJobsOf findings)) ⟨.empty, [], []⟩

/-- `[...actions.values()].sort((a, b) => a.id.localeCompare(b.id))` -/
def sortActions (actions : List RepairAction) : List RepairAction :=
  actions.insertionSort fun a b ↦ env.collates a.id b.id = true

/-- **`planRepairs(report, input, options)`** with `REPAIR_PLAN_TTL_MS` -/
def planRepairs (report : ReconciliationReport) (input : ReconciliationInput)
    (options : PlanOptions) : Option RepairPlan := do
  let now := options.now.getD input.now
  let state ← planLoop env input report.findings
  let list := sortActions env state.actions.values
  let createdAt ← Date.toISOString now
  let expiresAt ← Date.toISOString (now + options.ttlMs.getD 900000)
  let fingerprint ← fingerprintOf env list
  return {
    planId := options.planId
    runId := report.runId
    createdAt := createdAt
    expiresAt := expiresAt
    dryRun := true
    actions := list
    manual := state.manual
    fingerprint := fingerprint }

/-- `planRepairs(reconcile(input), input)` -/
def planOf (runId : JsString) (options : PlanOptions) : Option RepairPlan :=
  (reconcile env input runId).bind fun report ↦ planRepairs env report input options

end

/-- An environment with one hash and the order of code units. -/
def plainEnv : Env where
  toRuntime := Ledger.plainRuntime
  collates a b := decide (a ≤ b)

/-- Options with a fixed id and the defaults. -/
def plainOptions : PlanOptions := ⟨js "plan", none, none⟩

end Utix.Reconciliation
