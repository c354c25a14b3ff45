import Utix.Idempotency.Store

/-!
# Reconciliation snapshots

The data that `core/reconciliation/reconciliation.ts` compares: what the app stored and showed, what
the ledger reports, and the records of the other modules, each with the fields that a check or a
repair reads. Statuses that a check holds against a lifecycle table are texts here, whatever their
type says: finding an undeclared one is the point of the check.

`amountsEqual` compares amounts written in decimal without rounding either of them.

Instants are texts where the source stores texts, and the time of the reconciliation is a number. A
list of the snapshot may hold the same record twice, ids may be shared, and references may lead
nowhere: a snapshot is what was found, and no invariant is a field of it.
-/

namespace Utix.Reconciliation

open Js

/-! ### Records -/

structure StoredBalance where
  account : JsString
  asset : JsString
  balance : JsString
  cachedAt : Option JsString
deriving DecidableEq

structure LedgerBalance where
  account : JsString
  asset : JsString
  balance : JsString
  reference : JsString
deriving DecidableEq

/-- `JobPayload`, without its parameters; of the last error only the code. -/
structure JobPayload where
  id : JsString
  operation : JsString
  dedupeKey : Option JsString
  maxAttempts : ℤ
  attempts : ℤ
  status : JsString
  enqueuedAt : JsString
  nextAttemptAt : Option JsString
  lastError : Option JsString
  correlationId : JsString
deriving DecidableEq

/-- `Notification`, as far as it is reconciled. -/
structure Notification where
  recipient : JsString
  id : JsString
  state : JsString
deriving DecidableEq

/-- `IdempotencyRecord`, as far as it is reconciled. -/
structure IdempotencyRecord where
  key : JsString
  operation : JsString
  status : Idempotency.IdempotencyStatus
  createdAt : JsString
  expiresAt : JsString
  replays : ℤ
deriving DecidableEq

/-- `ExportEnvelope`, as far as it is reconciled; of the records only their number. -/
structure ExportEnvelope where
  correlationId : JsString
  recordCount : ℤ
  records : ℕ
  expiresAt : JsString
deriving DecidableEq

structure OperationRecord where
  id : JsString
  op : JsString
  state : JsString
  startedAt : JsString
deriving DecidableEq

structure ReconciliationInput where
  storedBalances : List StoredBalance
  ledgerBalances : List LedgerBalance
  jobs : List JobPayload
  notifications : List Notification
  idempotencyRecords : List IdempotencyRecord
  exportEnvelopes : List ExportEnvelope
  operations : List OperationRecord
  now : ℤ
  staleAfterMs : Option ℤ
deriving DecidableEq

/-- `emptySnapshot()`, at a given time. -/
def emptySnapshot (now : ℤ) : ReconciliationInput := ⟨[], [], [], [], [], [], [], now, none⟩

/-- `staleAfterOf(input)` with `DEFAULT_STALE_AFTER_MS` -/
def staleAfterOf (input : ReconciliationInput) : ℤ := input.staleAfterMs.getD 300000

/-- The text under which the line of an asset of an account is found. -/
def keyOf (account asset : JsString) : JsString := account ++ js "|" ++ asset

def StoredBalance.balanceKey (entry : StoredBalance) : JsString := keyOf entry.account entry.asset

def LedgerBalance.balanceKey (entry : LedgerBalance) : JsString := keyOf entry.account entry.asset

/-- `job.status === "queued" || job.status === "retrying"` -/
def JobPayload.pending (job : JobPayload) : Bool :=
  job.status = js "queued" || job.status = js "retrying"

/-! ### Amounts -/

/-- An amount in decimal: `^-?\d+(\.\d+)?$`. -/
structure Amount where
  negative : Bool
  units : ℕ
  places : ℕ

/-- `parse(value)` in `amountsEqual` -/
def Amount.parse (value : JsString) : Option Amount :=
  let trimmed := trim value
  let negative := startsWith trimmed (js "-")
  let unsigned := if negative then trimmed.drop 1 else trimmed
  let whole := unsigned.takeWhile isDigit
  if whole = [] then none
  else
    match unsigned.dropWhile isDigit with
    | [] => some ⟨negative, Decimal.digitsValue whole, 0⟩
    | point :: fraction =>
      if point = 46 ∧ fraction ≠ [] ∧ fraction.all isDigit then
        some ⟨negative, Decimal.digitsValue (whole ++ fraction), fraction.length⟩
      else none

/-- The amount in units of `10 ^ (-places)`. -/
def Amount.scaled (amount : Amount) (places : ℕ) : ℤ :=
  (if amount.negative then -1 else 1) * amount.units * 10 ^ (places - amount.places)

def amountsEqual (left right : JsString) : Bool :=
  match Amount.parse left, Amount.parse right with
  | some a, some b =>
    let places := max a.places b.places
    a.scaled places = b.scaled places
  | _, _ => trim left = trim right

def fractionDigits (value : JsString) : ℕ :=
  (((trim value).dropWhile (· ≠ 46)).drop 1).takeWhile (· ≠ 46) |>.length

end Utix.Reconciliation
