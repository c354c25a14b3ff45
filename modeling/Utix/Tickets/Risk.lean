import Utix.Tickets.State

/-!
# The transfer risk policy

`core/transfer-risk/policy.ts` and `records.ts`. `assessTransferRisk` scores a transfer request
against the state and answers `allow`, `review` or `block`; `recordTransferAttempt` writes the
outcome of a request into the log of attempts.

A reading of the clock is an argument `clock`, used where the context carries no `now`. The weights
of a policy are a function on the signals, so that no weight can be missing.

Five signals are read off the state: a quick resale, changes of the sender's device, many transfers
to the recipient, a transfer close to the end of the validity, and many attempts of the sender.
Their weights are added up to a score. The score does not decide alone: an attempt for the same
ticket at its present version that was rejected or blocked blocks every further one, an approved one
lets the same request pass below the blocking score, and one that waits for review or was approved
for another request sends a new request to review. The log keeps one attempt for each id. A
completed transfer blocks the decisions on other requests that it overtakes, and each change is
audited.
-/

namespace Utix.Tickets

open Js

/-! ### Policies and contexts -/

structure TransferRiskPolicy where
  rapidResaleMs : JsNum
  deviceWindowMs : JsNum
  maxDeviceChanges : JsNum
  recipientWindowMs : JsNum
  maxRecipientTransfers : JsNum
  lateTransferMs : JsNum
  retryWindowMs : JsNum
  maxAttempts : JsNum
  weights : RiskSignal → JsNum
  reviewScore : JsNum
  blockScore : JsNum

/-- The weights of the default policy. -/
def defaultWeights : RiskSignal → JsNum
  | .rapidResale => .ofInt 40
  | .deviceChanges => .ofInt 30
  | .recipientPattern => .ofInt 40
  | .unusualTiming => .ofInt 25
  | .repeatedAttempts => .ofInt 40

def defaultTransferRiskPolicy : TransferRiskPolicy where
  rapidResaleMs := .ofInt (5 * 60000)
  deviceWindowMs := .ofInt (60 * 60000)
  maxDeviceChanges := .ofInt 3
  recipientWindowMs := .ofInt (60 * 60000)
  maxRecipientTransfers := .ofInt 5
  lateTransferMs := .ofInt (10 * 60000)
  retryWindowMs := .ofInt (10 * 60000)
  maxAttempts := .ofInt 5
  weights := defaultWeights
  reviewScore := .ofInt 40
  blockScore := .ofInt 80

structure TransferRiskContext where
  now : Option JsNum := none
  deviceId : Option JsString := none
  policy : Option TransferRiskPolicy := none

section

variable (context : TransferRiskContext)

/-- `context.policy ?? DEFAULT_TRANSFER_RISK_POLICY` -/
def TransferRiskContext.effectivePolicy : TransferRiskPolicy :=
  context.policy.getD defaultTransferRiskPolicy

/-- `context.now ?? Date.now()` -/
def TransferRiskContext.nowOr (clock : ℤ) : JsNum :=
  context.now.getD (.ofInt clock)

/-- `Object.values(policy.weights)` -/
def TransferRiskPolicy.weightValues (policy : TransferRiskPolicy) : List JsNum :=
  [.rapidResale, .deviceChanges, .recipientPattern, .unusualTiming, .repeatedAttempts].map
    policy.weights

/-- `/^[a-zA-Z0-9:_-]{1,128}$/` -/
def isDeviceId (s : JsString) : Bool :=
  1 ≤ s.length && s.length ≤ 128 && s.all fun c ↦ isAlnum c || c == 58 || c == 95 || c == 45

def validRiskContext : Bool :=
  let policy := context.effectivePolicy
  let numbers := [policy.rapidResaleMs, policy.deviceWindowMs, policy.maxDeviceChanges,
    policy.recipientWindowMs, policy.maxRecipientTransfers, policy.lateTransferMs,
    policy.retryWindowMs, policy.maxAttempts, policy.reviewScore, policy.blockScore] ++
    policy.weightValues
  numbers.all (fun value ↦ value.isSafeInteger && (JsNum.ofInt 0).less value) &&
    policy.weightValues.all (fun value ↦ value.atMost (.ofInt 1000000)) &&
    policy.reviewScore.less policy.blockScore &&
    context.now.all (fun now ↦ now.isSafeInteger && (JsNum.ofInt 0).atMost now) &&
    context.deviceId.all isDeviceId

end

/-! ### Assessment -/

/-- `sameTransfer(a, b)`: every field that carries value, and the ids; not the timestamp. -/
def sameTransfer (a b : TransferTicketParams) : Bool :=
  a.id = b.id && a.ticketId = b.ticketId && a.fromAddress = b.fromAddress &&
    a.toAddress = b.toAddress && a.nonce = b.nonce && a.priceStroops.equals b.priceStroops &&
    a.organizerFeeStroops.equals b.organizerFeeStroops &&
    a.protocolFeeStroops.equals b.protocolFeeStroops &&
    a.sellerProceedsStroops.equals b.sellerProceedsStroops

/-- What an assessment decides. -/
inductive Disposition
  | allow
  | review
  | block
  deriving DecidableEq

structure TransferRiskAssessment where
  disposition : Disposition
  score : JsNum
  signals : List RiskSignal
  code : TransferRiskCode
  deriving DecidableEq

/-- `fresh(time, window)` at an instant. -/
def fresh (now time window : JsNum) : Bool := time.atMost now && (now.sub time).atMost window

section

variable (state : DomainState)

/-- The attempt that a request repeats: the first with its id or its nonce. -/
def existingAttempt (request : TransferTicketParams) : Option TransferRiskAttempt :=
  state.attempts.find? fun attempt ↦
    attempt.id = request.id || attempt.request.nonce = request.nonce

/-- The devices of the attempts a sender made in the window, oldest first, then the present one. -/
def recentDevices (request : TransferTicketParams) (context : TransferRiskContext) (now : JsNum) :
    List JsString :=
  let recent := state.attempts.filter fun attempt ↦
    attempt.request.fromAddress = request.fromAddress &&
      fresh now attempt.submittedAt context.effectivePolicy.deviceWindowMs
  let sorted := recent.insertionSort fun left right ↦ left.submittedAt.atMost right.submittedAt
  -- an empty device id is no device id
  sorted.filterMap TransferRiskAttempt.deviceId ++ (context.deviceId.filter (· ≠ [])).toList

/-- How often a device differs from the one before it. -/
def deviceChanges : List JsString → ℕ
  | first :: second :: rest =>
    (if second ≠ first then 1 else 0) + deviceChanges (second :: rest)
  | _ => 0

/-- The number of elements that satisfy a test. -/
def howMany {α : Type} (xs : List α) (p : α → Bool) : JsNum := .ofInt (xs.countP p)

/-- The signals of a request, in the order of the source. -/
def riskSignals (ticket : Ticket) (request : TransferTicketParams) (context : TransferRiskContext)
    (now : JsNum) : List RiskSignal :=
  let policy := context.effectivePolicy
  (if state.transfers.any fun transfer ↦ transfer.ticketId = ticket.id &&
      fresh now transfer.timestamp policy.rapidResaleMs then [.rapidResale] else []) ++
  (if policy.maxDeviceChanges.atMost
      (.ofInt (deviceChanges (recentDevices state request context now))) then
    [.deviceChanges] else []) ++
  (if policy.maxRecipientTransfers.atMost (howMany state.transfers fun transfer ↦
      transfer.toAddress = request.toAddress &&
        fresh now transfer.timestamp policy.recipientWindowMs) then [.recipientPattern] else []) ++
  (if now.atMost ticket.validUntil && (ticket.validUntil.sub now).atMost policy.lateTransferMs then
    [.unusualTiming] else []) ++
  (if policy.maxAttempts.atMost (howMany state.attempts fun attempt ↦
      attempt.request.fromAddress = request.fromAddress &&
        fresh now attempt.submittedAt policy.retryWindowMs) then [.repeatedAttempts] else [])

/-- The attempts recorded for a ticket at its present version. -/
def activeAttempts (ticket : Ticket) : List TransferRiskAttempt :=
  state.attempts.filter fun attempt ↦
    attempt.request.ticketId = ticket.id && attempt.ticketVersion = ticket.nonce

/-- The decision on a request, given its score and the active attempts. -/
def decideTransfer (policy : TransferRiskPolicy) (active : List TransferRiskAttempt)
    (request : TransferTicketParams) (score : JsNum) : Disposition × TransferRiskCode :=
  if active.any (fun attempt ↦ attempt.status = .rejected) then (.block, .transferRejected)
  else if active.any (fun attempt ↦ attempt.status = .blocked) ||
      policy.blockScore.atMost score then
    (.block, .transferBlocked)
  else if active.any (fun attempt ↦
      attempt.status = .approved && sameTransfer attempt.request request) then
    (.allow, .transferApproved)
  else if active.any
      (fun attempt ↦ attempt.status = .reviewRequired || attempt.status = .approved) ||
      policy.reviewScore.atMost score then (.review, .transferReviewRequired)
  else (.allow, .transferCompleted)

section

variable (request : TransferTicketParams)

def assessTransferRisk (context : TransferRiskContext) (clock : ℤ) : TransferRiskAssessment :=
  if !validRiskContext context then ⟨.block, .ofInt 0, [], .invalidRiskContext⟩
  else
    match state.tickets.get request.ticketId with
    | none => ⟨.block, .ofInt 0, [], .transferBlocked⟩
    | some ticket =>
      if (existingAttempt state request).any fun existing ↦
          !sameTransfer existing.request request || existing.ticketVersion ≠ ticket.nonce then
        ⟨.block, .ofInt 0, [], .transferBlocked⟩
      else
        let policy := context.effectivePolicy
        let signals := riskSignals state ticket request context (context.nowOr clock)
        let score := signals.foldl (fun total signal ↦ total.add (policy.weights signal)) (.ofInt 0)
        let decision := decideTransfer policy (activeAttempts state ticket) request score
        ⟨decision.1, score, signals, decision.2⟩

/-! ### Records -/

/-- A decision on another request that a completed transfer overtakes. -/
def isSuperseded (version : ℕ) (status : TransferRiskStatus) (item : TransferRiskAttempt) : Bool :=
  status = .completed && item.id ≠ request.id && item.request.ticketId = request.ticketId &&
    item.ticketVersion = version && (item.status = .reviewRequired || item.status = .approved)

def recordTransferAttempt (version : ℕ) (status : TransferRiskStatus)
    (assessment : TransferRiskAssessment) (context : TransferRiskContext) (clock : ℤ) :
    DomainState :=
  let timestamp := context.nowOr clock
  let existing := state.attempts.find? fun attempt ↦ attempt.id = request.id
  let attempt : TransferRiskAttempt :=
    { id := request.id
      request := { request with timestamp := some timestamp }
      ticketVersion := version
      submittedAt := (existing.map TransferRiskAttempt.submittedAt).getD timestamp
      status := status
      deviceId := (existing.bind TransferRiskAttempt.deviceId).or context.deviceId
      score := assessment.score
      signals := assessment.signals }
  let superseded := isSuperseded request version status
  let attempts := (state.attempts.filter fun item ↦ item.id ≠ request.id).map
    (fun item ↦ if superseded item then { item with status := .blocked } else item) ++ [attempt]
  let audit := state.audit ++
    (state.attempts.filter superseded).map (fun item ↦
      ⟨item.id, .system, js "transfer-risk", js "ownership_changed", timestamp, .blocked⟩) ++
    [⟨request.id, .user, request.fromAddress, assessment.code.text, timestamp, status⟩]
  { state with transferRisk := some ⟨attempts, audit⟩ }

end

end

end Utix.Tickets
