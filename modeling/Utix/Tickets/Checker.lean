import Utix.Tickets.State

/-!
# The invariant checker

`DomainInvariantChecker` of `core/invariants/checker.ts`. `verifyAll` walks over the tickets, the
events and the transfers of a state and lists every violation; `canTransitionStatus` decides one
change of status.

`verifyAll_eq_nil_iff` says what an empty list means, rule by rule, and is all that later modules
use of the checker.

A ticket is checked for its price and its validity window, and for a fraud flag or a blacklisted
owner unless it is locked or burned; an event for counters that are negative or above the capacity;
a transfer for the split of its price and for its nonce. Each rule has its own record of a
violation, with the number, the name and the text that the source gives it, and a function that
reports it or nothing. The checks of a ticket read nothing of the state but the blacklist, and the
checks of an event only how many tickets name it, so a mutation that touches neither leaves their
results alone.
-/

namespace Utix.Tickets

open Js Lib List

/-! ### Tickets -/

/-- The value of the literal `922_337_203_685_477_5807`, which binary64 rounds to `2 ^ 63`. -/
def stroopLimit : JsNum := .ofInt (2 ^ 63)

/-- INV-07: the price of a ticket is no stroop amount. -/
def priceInvalid (price : JsNum) : Bool :=
  !price.isInteger || price.less (.ofInt 0) || stroopLimit.less price

/-- Neither locked nor burned. -/
def Ticket.isLoose (ticket : Ticket) : Bool := ticket.status ≠ .locked && ticket.status ≠ .burned

section

variable (ticketId : JsString) (ticket : Ticket)

/-- INV-07 -/
def stroopViolation : InvariantViolation where
  invariantId := .inv07
  name := js "Stroop Precision & Positive Bounds"
  severity := .critical
  entityId := ticketId
  entityType := .ticket
  message := js "Ticket price " ++ ticket.priceStroops.text ++
    js " is invalid; must be a non-negative integer Stroop amount"
  context := some [(js "priceStroops", .num ticket.priceStroops)]

/-- INV-08 -/
def windowViolation : InvariantViolation where
  invariantId := .inv08
  name := js "Timebound Redemption Validity Window"
  severity := .high
  entityId := ticketId
  entityType := .ticket
  message := js "Ticket validity window inverted: validFrom (" ++ ticket.validFrom.text ++
    js ") > validUntil (" ++ ticket.validUntil.text ++ js ")"
  context := some [(js "validFrom", .num ticket.validFrom),
    (js "validUntil", .num ticket.validUntil)]

/-- INV-05 -/
def fraudViolation : InvariantViolation where
  invariantId := .inv05
  name := js "Escrow / Fraud Lock Transfer Bar"
  severity := .critical
  entityId := ticketId
  entityType := .ticket
  message := js "Ticket flagged for fraud must be in 'locked' or 'burned' state, but was '" ++
    ticket.status.text ++ js "'"
  context := some [(js "status", .str ticket.status.text), (js "fraudFlag", .bool ticket.fraudFlag)]

/-- INV-11 -/
def blacklistViolation : InvariantViolation where
  invariantId := .inv11
  name := js "Blacklisted Principal Action Quarantine"
  severity := .critical
  entityId := ticketId
  entityType := .ticket
  message := js "Ticket is owned by blacklisted address " ++ ticket.ownerAddress ++
    js " and must be locked or burned"
  context := some [(js "ownerAddress", .str ticket.ownerAddress)]

end

def ticketViolations (state : DomainState) (ticketId : JsString) (ticket : Ticket) :
    List InvariantViolation :=
  (if priceInvalid ticket.priceStroops then [stroopViolation ticketId ticket] else []) ++
  (if ticket.validUntil.less ticket.validFrom then [windowViolation ticketId ticket] else []) ++
  (if ticket.fraudFlag && ticket.isLoose then [fraudViolation ticketId ticket] else []) ++
  (if ticket.ownerAddress ∈ state.blacklistedAddresses ∧ ticket.isLoose then
    [blacklistViolation ticketId ticket] else [])

/-! ### Events -/

/-- `eventTicketCounts.get(eventId) ?? 0`: how many tickets of the state belong to an event. -/
def DomainState.actualTickets (state : DomainState) (eventId : JsString) : ℕ :=
  state.tickets.values.countP fun ticket ↦ ticket.eventId = eventId

/-- INV-01 -/
def supplyViolation (eventId : JsString) (event : Event) : InvariantViolation where
  invariantId := .inv01
  name := js "Non-Negative & Capacity-Bounded Supply"
  severity := .critical
  entityId := eventId
  entityType := .event
  message := js "Event issuedCount (" ++ event.issuedCount.text ++ js ") or totalCapacity (" ++
    event.totalCapacity.text ++ js ") is negative"
  context := some [(js "issuedCount", .num event.issuedCount),
    (js "totalCapacity", .num event.totalCapacity)]

/-- INV-10 -/
def capacityViolation (eventId : JsString) (event : Event) (actual : JsNum) :
    InvariantViolation where
  invariantId := .inv10
  name := js "Organizer Event Solvency & Capacity Conservation"
  severity := .critical
  entityId := eventId
  entityType := .event
  message := js "Event oversold: issued tickets (" ++ (event.issuedCount.max actual).text ++
    js ") exceeds total capacity (" ++ event.totalCapacity.text ++ js ")"
  context := some [(js "totalCapacity", .num event.totalCapacity),
    (js "issuedCount", .num event.issuedCount), (js "actualTickets", .num actual)]

/-- The violations of one event with this many tickets. -/
def eventViolations (eventId : JsString) (event : Event) (actual : JsNum) :
    List InvariantViolation :=
  (if event.issuedCount.less (.ofInt 0) || event.totalCapacity.less (.ofInt 0) then
    [supplyViolation eventId event] else []) ++
  (if event.totalCapacity.less event.issuedCount || event.totalCapacity.less actual then
    [capacityViolation eventId event actual] else [])

/-! ### Transfers -/

/-- `organizerFeeStroops + protocolFeeStroops + sellerProceedsStroops` -/
def sumOfSplits (organizerFee protocolFee sellerProceeds : JsNum) : JsNum :=
  (organizerFee.add protocolFee).add sellerProceeds

section

variable (transfer : TransferRecord)

/-- The sum of the parts of a transfer. -/
def TransferRecord.splits : JsNum :=
  sumOfSplits transfer.organizerFeeStroops transfer.protocolFeeStroops
    transfer.sellerProceedsStroops

/-- INV-06 -/
def splitViolation : InvariantViolation where
  invariantId := .inv06
  name := js "Value Conservation & Zero-Sum Fee Split"
  severity := .critical
  entityId := transfer.id
  entityType := .transfer
  message := js "Fee split does not equal transfer price: " ++ transfer.organizerFeeStroops.text ++
    js " + " ++ transfer.protocolFeeStroops.text ++ js " + " ++
    transfer.sellerProceedsStroops.text ++ js " = " ++ transfer.splits.text ++ js ", expected " ++
    transfer.priceStroops.text
  context := some [(js "priceStroops", .num transfer.priceStroops),
    (js "organizerFee", .num transfer.organizerFeeStroops),
    (js "protocolFee", .num transfer.protocolFeeStroops),
    (js "sellerProceeds", .num transfer.sellerProceedsStroops)]

/-- INV-09 -/
def replayViolation : InvariantViolation where
  invariantId := .inv09
  name := js "Nonce & Idempotency Replay Protection"
  severity := .critical
  entityId := transfer.id
  entityType := .transfer
  message := js "Replay detected: transfer nonce '" ++ transfer.nonce ++
    js "' has already been processed"
  context := some [(js "nonce", .str transfer.nonce)]

end

/-- The violations of the transfers that are left, when these nonces were seen before. -/
def transferViolations (processedNonces : Finset JsString) :
    Finset JsString → List TransferRecord → List InvariantViolation
  | _, [] => []
  | seenNonces, transfer :: rest =>
    (if transfer.splits.equals transfer.priceStroops then [] else [splitViolation transfer]) ++
    -- a nonce counts as replayed as soon as it is among the processed ones, and the transfer that
    -- put it there is no exception
    if transfer.nonce ∈ seenNonces ∨ transfer.nonce ∈ processedNonces then
      replayViolation transfer :: transferViolations processedNonces seenNonces rest
    else transferViolations processedNonces (insert transfer.nonce seenNonces) rest

def verifyAll (state : DomainState) : List InvariantViolation :=
  state.tickets.entries.flatMap (fun entry ↦ ticketViolations state entry.1 entry.2) ++
  state.events.entries.flatMap (fun entry ↦
    eventViolations entry.1 entry.2 (.ofInt (state.actualTickets entry.1))) ++
  transferViolations state.processedNonces ∅ state.transfers

/-! ### What an empty list of violations means -/

/-- A ticket that breaks no rule. -/
structure Ticket.Sound (ticket : Ticket) (state : DomainState) : Prop where
  price : priceInvalid ticket.priceStroops = false
  window : ticket.validUntil.less ticket.validFrom = false
  fraud : ticket.fraudFlag = true → ticket.isLoose = false
  blacklist : ticket.ownerAddress ∈ state.blacklistedAddresses → ticket.isLoose = false

/-- An event that breaks no rule, with this many tickets. -/
structure Event.Sound (event : Event) (actual : ℕ) : Prop where
  issued_nonneg : event.issuedCount.less (.ofInt 0) = false
  capacity_nonneg : event.totalCapacity.less (.ofInt 0) = false
  issued_le : event.totalCapacity.less event.issuedCount = false
  actual_le : event.totalCapacity.less (.ofInt actual) = false

theorem reported_eq_nil_iff {p : Prop} [Decidable p] {v : InvariantViolation} :
    (if p then [v] else []) = [] ↔ ¬ p := by
  split <;> simp_all

variable {state : DomainState}

/-- Nothing is reported about a ticket exactly if it keeps the four rules. -/
theorem ticketViolations_eq_nil_iff {ticketId : JsString} {ticket : Ticket} :
    ticketViolations state ticketId ticket = [] ↔ ticket.Sound state := by
  simp only [ticketViolations, append_eq_nil_iff, reported_eq_nil_iff, and_assoc,
    Bool.not_eq_true, Bool.and_eq_true, not_and]
  exact ⟨fun ⟨h₁, h₂, h₃, h₄⟩ ↦ ⟨h₁, h₂, h₃, h₄⟩, fun h ↦ ⟨h.1, h.2, h.3, h.4⟩⟩

/-- Nothing is reported about an event exactly if its counters are not negative and neither the
counter nor the tickets exceed the capacity. -/
theorem eventViolations_eq_nil_iff {eventId : JsString} {event : Event} {actual : ℕ} :
    eventViolations eventId event (.ofInt actual) = [] ↔ event.Sound actual := by
  simp only [eventViolations, append_eq_nil_iff, reported_eq_nil_iff, Bool.or_eq_true, not_or,
    Bool.not_eq_true, and_assoc]
  exact ⟨fun ⟨h₁, h₂, h₃, h₄⟩ ↦ ⟨h₁, h₂, h₃, h₄⟩, fun h ↦ ⟨h.1, h.2, h.3, h.4⟩⟩

/-- **What the checker accepts**: sound tickets, sound events, and no complaint about a transfer. -/
theorem verifyAll_eq_nil_iff :
    verifyAll state = [] ↔
      (∀ id ticket, state.tickets.get id = some ticket → ticket.Sound state) ∧
      (∀ id event, state.events.get id = some event → event.Sound (state.actualTickets id)) ∧
      transferViolations state.processedNonces ∅ state.transfers = [] := by
  rw [verifyAll, append_eq_nil_iff, append_eq_nil_iff, flatMap_eq_nil_iff,
    flatMap_eq_nil_iff, and_assoc]
  simp only [ticketViolations_eq_nil_iff, eventViolations_eq_nil_iff, Prod.forall,
    Dict.mem_entries_iff]

/-! ### Transitions of a status -/

def validTransitions : TicketStatus → List TicketStatus
  | .issued => [.transferred, .locked, .redeemed, .expired, .burned]
  | .transferred => [.transferred, .locked, .redeemed, .expired, .burned]
  | .locked => [.issued, .transferred, .burned]
  | .redeemed => []
  | .expired => []
  | .burned => []

/-- Redeemed, expired or burned. -/
def TicketStatus.isTerminal : TicketStatus → Bool
  | .redeemed => true
  | .expired => true
  | .burned => true
  | _ => false

/-- `canTransitionStatus(fromStatus, toStatus)`: the violation, if the change is not allowed. -/
def canTransitionStatus (fromStatus toStatus : TicketStatus) : Option InvariantViolation :=
  if fromStatus.isTerminal then
    some {
      invariantId := .inv03
      name := js "Terminal State Immutability"
      severity := .critical
      entityId := js "transition"
      entityType := .ticket
      message := js "Cannot transition from terminal state '" ++ fromStatus.text ++ js "' to '" ++
        toStatus.text ++ js "'"
      context := some [(js "fromStatus", .str fromStatus.text),
        (js "toStatus", .str toStatus.text)] }
  else if toStatus ∉ validTransitions fromStatus then
    some {
      invariantId := .inv04
      name := js "Valid Sequential Lifecycle Progression"
      severity := .high
      entityId := js "transition"
      entityType := .ticket
      message := js "Illegal lifecycle transition from '" ++ fromStatus.text ++ js "' to '" ++
        toStatus.text ++ js "'"
      context := some [(js "fromStatus", .str fromStatus.text),
        (js "toStatus", .str toStatus.text),
        (js "allowed", .arr ((validTransitions fromStatus).map fun s ↦ .str s.text))] }
  else none

/-- A terminal status has no way out. -/
theorem isTerminal_of_canTransitionStatus {a b : TicketStatus}
    (h : canTransitionStatus a b = none) : a.isTerminal = false := by
  rw [canTransitionStatus] at h
  split at h
  · cases h
  · next ha => exact Bool.not_eq_true _ ▸ ha

end Utix.Tickets
