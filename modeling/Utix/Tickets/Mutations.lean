import Utix.Tickets.Checker
import Utix.Tickets.Risk

/-!
# The guarded mutations

`issueTicket`, `validateTicketTransfer`, `transferTicket` and `redeemTicket` of
`core/invariants/mutations.ts`. Each takes a state and answers the next state or the first violation
it finds; a reading of the clock is an argument.

For each mutation one inversion theorem (`issueTicket_eq_ok`, `validateTicketTransfer_eq_ok`,
`transferTicket_eq_ok`, `redeemTicket_eq_ok`) says what a success means: which checks passed, and
what the next state is. The proofs about runs use these and never unfold a mutation.

The checks are made in the order of the source, since a caller sees the first that fails, with its
number, name and text. They are written with combinators that refuse if a test holds, if a lookup
finds nothing, or with the violation that another function has found. What has passed is a structure
with a field for each check (`Issuable`, `Transferable`, `Redeemable`), so that a later proof takes
the check it needs by name. A transfer is validated first and then assessed by the risk policy; the
result is one state, in which the owner, the nonce of the ticket, the log and the attempts have
changed together.
-/

namespace Utix.Tickets

open Js

/-! ### Issuance -/

structure IssueTicketParams where
  id : JsString
  eventId : JsString
  tierId : JsString
  ownerAddress : JsString
  priceStroops : JsNum
  validFrom : JsNum
  validUntil : JsNum
  metadataHash : Option JsString := none

/-- The ticket that `issueTicket` creates. -/
def IssueTicketParams.ticket (params : IssueTicketParams) (clock : ℤ) : Ticket where
  id := params.id
  eventId := params.eventId
  tierId := params.tierId
  ownerAddress := params.ownerAddress
  priceStroops := params.priceStroops
  status := .issued
  issuedAt := .ofInt clock
  validFrom := params.validFrom
  validUntil := params.validUntil
  fraudFlag := false
  nonce := 0
  metadataHash := params.metadataHash.getD []

/-- The state with a new ticket, and its event counting one more. The ticket goes under the id that
the caller chose, whether or not there is one already. -/
def DomainState.withIssued (state : DomainState) (event : Event) (ticket : Ticket) : DomainState :=
  { state with
    tickets := state.tickets.set ticket.id ticket
    events := state.events.set event.id
      { event with issuedCount := event.issuedCount.add (.ofInt 1) } }

def issueTicket (state : DomainState) (params : IssueTicketParams) (clock : ℤ) :
    Checked DomainState := do
  let event ← orRefuse (state.events.get params.eventId) {
    invariantId := .inv10
    name := js "Organizer Event Solvency & Capacity Conservation"
    severity := .critical
    entityId := params.eventId
    entityType := .event
    message := js "Cannot issue ticket for non-existent event '" ++ params.eventId ++ js "'" }
  refuseIf (event.totalCapacity.less (event.issuedCount.add (.ofInt 1))) {
    invariantId := .inv10
    name := js "Organizer Event Solvency & Capacity Conservation"
    severity := .critical
    entityId := event.id
    entityType := .event
    message := js "Event '" ++ event.id ++ js "' has reached maximum capacity (" ++
      event.totalCapacity.text ++ js ")" }
  refuseIf (params.ownerAddress ∈ state.blacklistedAddresses) {
    invariantId := .inv11
    name := js "Blacklisted Principal Action Quarantine"
    severity := .critical
    entityId := params.id
    entityType := .ticket
    message := js "Cannot issue ticket to blacklisted address '" ++ params.ownerAddress ++ js "'" }
  refuseIf (!params.priceStroops.isInteger || params.priceStroops.less (.ofInt 0)) {
    invariantId := .inv07
    name := js "Stroop Precision & Positive Bounds"
    severity := .critical
    entityId := params.id
    entityType := .ticket
    message := js "Ticket price must be a non-negative integer Stroop amount" }
  refuseIf (params.validUntil.less params.validFrom) {
    invariantId := .inv08
    name := js "Timebound Redemption Validity Window"
    severity := .high
    entityId := params.id
    entityType := .ticket
    message := js "validFrom (" ++ params.validFrom.text ++
      js ") cannot be greater than validUntil (" ++ params.validUntil.text ++ js ")" }
  .ok (state.withIssued event (params.ticket clock))

/-- What an issuance has checked. -/
structure Issuable (state : DomainState) (params : IssueTicketParams) (event : Event) : Prop where
  event_eq : state.events.get params.eventId = some event
  room : event.totalCapacity.less (event.issuedCount.add (.ofInt 1)) = false
  owner : params.ownerAddress ∉ state.blacklistedAddresses
  integer : params.priceStroops.isInteger = true
  nonneg : params.priceStroops.less (.ofInt 0) = false
  window : params.validUntil.less params.validFrom = false

variable {state next : DomainState}

/-- **What a successful issuance is.** -/
theorem issueTicket_eq_ok {params : IssueTicketParams} {clock : ℤ} :
    issueTicket state params clock = .ok next ↔
      ∃ event, Issuable state params event ∧
        next = state.withIssued event (params.ticket clock) := by
  simp only [issueTicket, orRefuse_bind_eq_ok, refuseIf_bind_eq_ok, Bool.or_eq_false_iff,
    Bool.not_eq_eq_eq_not, Bool.not_false, decide_eq_false_iff_not, Except.ok.injEq]
  constructor
  · rintro ⟨event, hevent, hroom, howner, ⟨hinteger, hnonneg⟩, hwindow, hnext⟩
    exact ⟨event, ⟨hevent, hroom, howner, hinteger, hnonneg, hwindow⟩, hnext.symm⟩
  · rintro ⟨event, h, hnext⟩
    exact ⟨event, h.event_eq, h.room, h.owner, ⟨h.integer, h.nonneg⟩, h.window, hnext.symm⟩

/-! ### Transfers -/

/-- INV-02: there is no such ticket. -/
def ticketNotFound (ticketId : JsString) : InvariantViolation where
  invariantId := .inv02
  name := js "Single Active Ownership"
  severity := .critical
  entityId := ticketId
  entityType := .ticket
  message := js "Ticket '" ++ ticketId ++ js "' not found"

section

variable (params : TransferTicketParams)

/-- The amounts that a transfer names. -/
def TransferTicketParams.amounts : List JsNum :=
  [params.priceStroops, params.organizerFeeStroops, params.protocolFeeStroops,
    params.sellerProceedsStroops]

/-- The parameters of a transfer that no state can accept. -/
def TransferTicketParams.isMalformed : Bool :=
  isBlank params.id || 128 < params.id.length || isBlank params.nonce ||
    128 < params.nonce.length || isBlank params.fromAddress || isBlank params.toAddress ||
    params.fromAddress = params.toAddress ||
    params.amounts.any fun amount ↦ !amount.isSafeInteger || amount.less (.ofInt 0)

/-- The sum of the parts that a transfer names. -/
def TransferTicketParams.splits : JsNum :=
  sumOfSplits params.organizerFeeStroops params.protocolFeeStroops params.sellerProceedsStroops

end

def validateTicketTransfer (state : DomainState) (params : TransferTicketParams) :
    Checked Ticket := do
  refuseIf params.isMalformed {
    invariantId := .inv07
    name := js "Stroop Precision & Positive Bounds"
    severity := .critical
    entityId := params.id
    entityType := .transfer
    message := js "Use a unique transfer ID and nonce, a different recipient, " ++
      js "and non-negative safe integer fee amounts." }
  let ticket ← orRefuse (state.tickets.get params.ticketId) (ticketNotFound params.ticketId)
  refuseIf (ticket.ownerAddress ≠ params.fromAddress) {
    invariantId := .inv02
    name := js "Single Active Ownership"
    severity := .critical
    entityId := ticket.id
    entityType := .ticket
    message := js "Transfer initiator '" ++ params.fromAddress ++
      js "' is not the current owner '" ++ ticket.ownerAddress ++ js "'" }
  refuseWith (canTransitionStatus ticket.status .transferred)
  refuseIf (ticket.status = .locked || ticket.fraudFlag) {
    invariantId := .inv05
    name := js "Escrow / Fraud Lock Transfer Bar"
    severity := .critical
    entityId := ticket.id
    entityType := .ticket
    message := js "Ticket is locked or flagged for fraud and cannot be transferred" }
  refuseIf (params.fromAddress ∈ state.blacklistedAddresses ||
      params.toAddress ∈ state.blacklistedAddresses) {
    invariantId := .inv11
    name := js "Blacklisted Principal Action Quarantine"
    severity := .critical
    entityId := ticket.id
    entityType := .ticket
    message := js "Transfer involves a blacklisted party and is quarantined" }
  refuseIf (!params.splits.equals params.priceStroops) {
    invariantId := .inv06
    name := js "Value Conservation & Zero-Sum Fee Split"
    severity := .critical
    entityId := params.id
    entityType := .transfer
    message := js "Fee splits (" ++ params.splits.text ++ js ") do not sum to total price (" ++
      params.priceStroops.text ++ js ")" }
  refuseIf (params.nonce ∈ state.processedNonces ||
      state.transfers.any fun transfer ↦ transfer.id = params.id) {
    invariantId := .inv09
    name := js "Nonce & Idempotency Replay Protection"
    severity := .critical
    entityId := params.id
    entityType := .transfer
    message := js "Replay detected: transfer nonce '" ++ params.nonce ++
      js "' has already been processed" }
  .ok ticket

/-- What the validation of a transfer has checked. -/
structure Transferable (state : DomainState) (params : TransferTicketParams) (ticket : Ticket) :
    Prop where
  wellFormed : params.isMalformed = false
  ticket_eq : state.tickets.get params.ticketId = some ticket
  owner : ticket.ownerAddress = params.fromAddress
  transition : canTransitionStatus ticket.status .transferred = none
  unlocked : ticket.status ≠ .locked
  unflagged : ticket.fraudFlag = false
  sender : params.fromAddress ∉ state.blacklistedAddresses
  recipient : params.toAddress ∉ state.blacklistedAddresses
  splits : params.splits.equals params.priceStroops = true
  nonce : params.nonce ∉ state.processedNonces
  id : ∀ transfer ∈ state.transfers, transfer.id ≠ params.id

variable {params : TransferTicketParams}

/-- **What a valid transfer is.** -/
theorem validateTicketTransfer_eq_ok {ticket : Ticket} :
    validateTicketTransfer state params = .ok ticket ↔ Transferable state params ticket := by
  simp only [validateTicketTransfer, orRefuse_bind_eq_ok, refuseIf_bind_eq_ok,
    refuseWith_bind_eq_ok, Bool.or_eq_false_iff, Bool.not_eq_eq_eq_not, Bool.not_false,
    decide_eq_false_iff_not, ne_eq, not_not, List.any_eq_false, decide_eq_true_eq,
    Except.ok.injEq]
  constructor
  · rintro ⟨hform, found, hfound, howner, htransition, ⟨hlock, hflag⟩, ⟨hsender, hrecipient⟩,
      hsplits, ⟨hnonce, hid⟩, rfl⟩
    exact ⟨hform, hfound, howner, htransition, hlock, hflag, hsender, hrecipient, hsplits, hnonce,
      hid⟩
  · intro h
    exact ⟨h.wellFormed, ticket, h.ticket_eq, h.owner, h.transition, ⟨h.unlocked, h.unflagged⟩,
      ⟨h.sender, h.recipient⟩, h.splits, ⟨h.nonce, h.id⟩, rfl⟩

def TransferTicketParams.record (params : TransferTicketParams) (timestamp : JsNum) :
    TransferRecord where
  id := params.id
  ticketId := params.ticketId
  fromAddress := params.fromAddress
  toAddress := params.toAddress
  priceStroops := params.priceStroops
  organizerFeeStroops := params.organizerFeeStroops
  protocolFeeStroops := params.protocolFeeStroops
  sellerProceedsStroops := params.sellerProceedsStroops
  nonce := params.nonce
  timestamp := timestamp

/-- A ticket in the hands of its next owner. -/
def Ticket.handedTo (ticket : Ticket) (toAddress : JsString) : Ticket :=
  { ticket with ownerAddress := toAddress, status := .transferred, nonce := ticket.nonce + 1 }

/-- The state after a transfer, before the attempt is recorded. -/
def DomainState.withTransferred (state : DomainState) (ticket : Ticket)
    (params : TransferTicketParams) (timestamp : JsNum) : DomainState :=
  { state with
    tickets := state.tickets.set ticket.id (ticket.handedTo params.toAddress)
    transfers := state.transfers ++ [params.record timestamp]
    processedNonces := insert params.nonce state.processedNonces }

/-- The context with its `now` filled in. -/
def TransferRiskContext.at (context : TransferRiskContext) (clock : ℤ) : TransferRiskContext :=
  { context with now := some (context.nowOr clock) }

/-- The violation of a transfer that the risk policy stops. -/
def riskViolation (params : TransferTicketParams) (assessment : TransferRiskAssessment) :
    InvariantViolation where
  invariantId := .inv05
  name := js "Transfer risk review"
  severity := .high
  entityId := params.id
  entityType := .transfer
  code := some assessment.code
  message := if assessment.disposition = .review then
      js "This transfer needs organizer review before it can continue."
    else js "This transfer cannot continue. Contact the organizer for help."

def transferTicket (state : DomainState) (params : TransferTicketParams)
    (riskContext : TransferRiskContext) (clock : ℤ) : Checked DomainState := do
  let ticket ← validateTicketTransfer state params
  let context := riskContext.at clock
  let assessment := assessTransferRisk state params context clock
  refuseIf (assessment.disposition ≠ .allow) (riskViolation params assessment)
  .ok (recordTransferAttempt (state.withTransferred ticket params (context.nowOr clock)) params
    ticket.nonce .completed assessment context clock)

/-- **What a successful transfer is.** -/
theorem transferTicket_eq_ok {riskContext : TransferRiskContext} {clock : ℤ} :
    transferTicket state params riskContext clock = .ok next ↔
      ∃ ticket, Transferable state params ticket ∧
        (assessTransferRisk state params (riskContext.at clock) clock).disposition = .allow ∧
        next = recordTransferAttempt
          (state.withTransferred ticket params ((riskContext.at clock).nowOr clock)) params
          ticket.nonce .completed (assessTransferRisk state params (riskContext.at clock) clock)
          (riskContext.at clock) clock := by
  rw [transferTicket]
  cases hvalid : validateTicketTransfer state params with
  | error violation =>
    refine ⟨nofun, ?_⟩
    rintro ⟨ticket, h, -⟩
    rw [validateTicketTransfer_eq_ok.2 h] at hvalid
    cases hvalid
  | ok ticket =>
    have hticket := validateTicketTransfer_eq_ok.1 hvalid
    refine (refuseIf_bind_eq_ok.trans ?_)
    simp only [ne_eq, decide_eq_false_iff_not, not_not, Except.ok.injEq]
    constructor
    · rintro ⟨hallow, hnext⟩
      exact ⟨ticket, hticket, hallow, hnext.symm⟩
    rintro ⟨other, hother, hallow, hnext⟩
    obtain rfl : ticket = other :=
      Option.mem_unique hticket.ticket_eq hother.ticket_eq
    exact ⟨hallow, hnext.symm⟩

/-! ### Redemption -/

structure RedeemTicketParams where
  ticketId : JsString
  claimerAddress : JsString
  timestamp : JsNum

def DomainState.withRedeemed (state : DomainState) (ticket : Ticket) : DomainState :=
  { state with tickets := state.tickets.set ticket.id { ticket with status := .redeemed } }

def redeemTicket (state : DomainState) (params : RedeemTicketParams) : Checked DomainState := do
  let ticket ← orRefuse (state.tickets.get params.ticketId) (ticketNotFound params.ticketId)
  refuseIf (ticket.ownerAddress ≠ params.claimerAddress) {
    invariantId := .inv02
    name := js "Single Active Ownership"
    severity := .critical
    entityId := ticket.id
    entityType := .ticket
    message := js "Claimer '" ++ params.claimerAddress ++ js "' does not own ticket '" ++
      ticket.id ++ js "'" }
  refuseWith (canTransitionStatus ticket.status .redeemed)
  refuseIf (ticket.status = .locked || ticket.fraudFlag) {
    invariantId := .inv05
    name := js "Escrow / Fraud Lock Transfer Bar"
    severity := .critical
    entityId := ticket.id
    entityType := .ticket
    message := js "Cannot redeem locked or fraud-flagged ticket" }
  refuseIf (params.timestamp.less ticket.validFrom || ticket.validUntil.less params.timestamp) {
    invariantId := .inv08
    name := js "Timebound Redemption Validity Window"
    severity := .high
    entityId := ticket.id
    entityType := .ticket
    message := js "Redemption time (" ++ params.timestamp.text ++
      js ") is outside valid event window [" ++ ticket.validFrom.text ++ js ", " ++
      ticket.validUntil.text ++ js "]" }
  .ok (state.withRedeemed ticket)

/-- What a redemption has checked. -/
structure Redeemable (state : DomainState) (params : RedeemTicketParams) (ticket : Ticket) :
    Prop where
  ticket_eq : state.tickets.get params.ticketId = some ticket
  owner : ticket.ownerAddress = params.claimerAddress
  transition : canTransitionStatus ticket.status .redeemed = none
  unlocked : ticket.status ≠ .locked
  unflagged : ticket.fraudFlag = false
  opened : params.timestamp.less ticket.validFrom = false
  unclosed : ticket.validUntil.less params.timestamp = false

/-- **What a successful redemption is.** -/
theorem redeemTicket_eq_ok {params : RedeemTicketParams} :
    redeemTicket state params = .ok next ↔
      ∃ ticket, Redeemable state params ticket ∧ next = state.withRedeemed ticket := by
  simp only [redeemTicket, orRefuse_bind_eq_ok, refuseIf_bind_eq_ok, refuseWith_bind_eq_ok,
    Bool.or_eq_false_iff, decide_eq_false_iff_not, ne_eq, not_not, Except.ok.injEq]
  constructor
  · rintro ⟨ticket, hticket, howner, htransition, ⟨hlock, hflag⟩, ⟨hfrom, huntil⟩, hnext⟩
    exact ⟨ticket, ⟨hticket, howner, htransition, hlock, hflag, hfrom, huntil⟩, hnext.symm⟩
  · rintro ⟨ticket, h, hnext⟩
    exact ⟨ticket, h.ticket_eq, h.owner, h.transition, ⟨h.unlocked, h.unflagged⟩,
      ⟨h.opened, h.unclosed⟩, hnext.symm⟩

end Utix.Tickets
