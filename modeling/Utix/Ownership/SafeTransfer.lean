import Utix.Ownership.Lapse
import Utix.Tickets.Commit

/-!
# Safe transfers of tickets

`initiateSafeTicketTransfer` and `acceptSafeTicketTransfer` of `core/invariants/mutations.ts`. The
first files a proposal with the ownership store. The second looks the proposal up, makes the
transfer on the state it is given, and settles the proposal; it is a mutation for `commitMutation`,
with the ownership store as the store beside the cell.

`acceptSafeTicketTransfer_ok` says what a successful acceptance does to both stores, and
`acceptSafeTicketTransfer_lapsed` that any other one only lets overdue proposals expire.

An acceptance makes the transfer on the state before it settles the proposal, so that everything
about the ticket has been checked by then. It looks at the clock once for each of its three parts,
unless the caller passes an instant. Both stores are arguments and results of a call; that the two
writes of an acceptance can be torn apart by other callers is the subject of the next module.
-/

namespace Utix.Ownership

open Js Idempotency Tickets List

/-! ### Initiation -/

/-- The parameters of `initiateSafeTicketTransfer`. -/
structure InitiateSafeTicketTransferParams where
  ticketId : JsString
  fromAddress : JsString
  toAddress : JsString
  expiresInMs : Option JsNum := none
  priceStroops : Option JsNum := none
  memo : Option JsString := none
  idempotencyKey : Option JsString := none
  correlationId : Option JsString := none
  actor : OwnershipActor

/-- The proposal that is asked for. -/
def InitiateSafeTicketTransferParams.initiation (params : InitiateSafeTicketTransferParams) :
    InitiateOwnershipTransferParams where
  resourceId := params.ticketId
  resourceType := some (js "ticket")
  currentOwner := params.fromAddress
  proposedOwner := params.toAddress
  expiresInMs := params.expiresInMs
  priceStroops := params.priceStroops
  memo := params.memo
  idempotencyKey := params.idempotencyKey
  correlationId := params.correlationId
  actor := params.actor

def checkSafeTransfer (state : DomainState) (params : InitiateSafeTicketTransferParams) :
    Checked Ticket := do
  let ticket ← orRefuse (state.tickets.get params.ticketId) (ticketNotFound params.ticketId)
  refuseIf (ticket.ownerAddress ≠ params.fromAddress) {
    invariantId := .inv02
    name := js "Single Active Ownership"
    severity := .critical
    entityId := ticket.id
    entityType := .ticket
    message := js "Transfer initiator '" ++ params.fromAddress ++
      js "' is not the current owner '" ++ ticket.ownerAddress ++ js "'" }
  refuseIf (ticket.status = .locked || ticket.fraudFlag) {
    invariantId := .inv05
    name := js "Escrow / Fraud Lock Transfer Bar"
    severity := .critical
    entityId := ticket.id
    entityType := .ticket
    message := js "Ticket is locked or flagged for fraud and cannot be transferred" }
  refuseIf (params.fromAddress ∈ state.blacklistedAddresses ||
      params.toAddress ∈ state.blacklistedAddresses) {
    invariantId := .inv11
    name := js "Blacklisted Principal Action Quarantine"
    severity := .critical
    entityId := ticket.id
    entityType := .ticket
    message := js "Transfer involves a blacklisted party and is quarantined" }
  .ok ticket

/-- The store refused to file the proposal. -/
def initiationRejected (ticket : Ticket) (failure : OwnershipFailure) : InvariantViolation where
  invariantId := .inv02
  name := js "Single Active Ownership"
  severity := .high
  entityId := ticket.id
  entityType := .ticket
  message := js "Safe ownership transfer initiation rejected: " ++ failure.text

def initiateSafeTicketTransfer (options : IdempotencyOptions) (state : DomainState)
    (params : InitiateSafeTicketTransferParams) (draw : OwnershipDraw)
    (store : OwnershipTransferStore) :
    Option (Checked OwnershipAnswer) × OwnershipTransferStore :=
  match checkSafeTransfer state params with
  | .error violation => (some (.error violation), store)
  | .ok ticket =>
    let proposalResult := initiate options store params.initiation draw
    (proposalResult.1.map (Except.mapError (initiationRejected ticket)), proposalResult.2)

/-! ### Acceptance -/

/-- The parameters of `acceptSafeTicketTransfer`. -/
structure AcceptSafeTicketTransferParams where
  transferId : JsString
  transferRecordId : JsString
  organizerFeeStroops : Option JsNum := none
  protocolFeeStroops : Option JsNum := none
  sellerProceedsStroops : Option JsNum := none
  nonce : JsString
  actor : OwnershipActor
  now : Option JsNum := none

/-- The readings of the clock in one acceptance: by `getTransfer`, by `transferTicket`, and by
`accept`. -/
structure AcceptReadings where
  lookupClock : ℤ
  transferClock : ℤ
  acceptClock : ℤ

section

variable (params : AcceptSafeTicketTransferParams)

/-- The proposal can be accepted by the actor. -/
def AcceptSafeTicketTransferParams.admits (p : OwnershipTransferProposal) : Bool :=
  p.resourceType = js "ticket" && p.status = .pending &&
    (params.actor.kind = .maintainer || stripAccount params.actor.id = stripAccount p.proposedOwner)

/-- The transfer that accepting the proposal makes. -/
def AcceptSafeTicketTransferParams.transfer (p : OwnershipTransferProposal) :
    TransferTicketParams :=
  let price := p.priceStroops.getD (.ofInt 0)
  let organizerFee := params.organizerFeeStroops.getD (.ofInt 0)
  let protocolFee := params.protocolFeeStroops.getD (.ofInt 0)
  { id := params.transferRecordId
    ticketId := p.resourceId
    fromAddress := p.currentOwner
    toAddress := p.proposedOwner
    priceStroops := price
    organizerFeeStroops := organizerFee
    protocolFeeStroops := protocolFee
    sellerProceedsStroops := params.sellerProceedsStroops.getD
      ((price.sub organizerFee).sub protocolFee)
    nonce := params.nonce }

/-- The call of `store.accept`. -/
def AcceptSafeTicketTransferParams.acceptance : AcceptOwnershipTransferParams where
  transferId := params.transferId
  actor := params.actor
  now := params.now

/-- The violation of an acceptance, with its message. -/
def acceptanceRefused (message : String) : InvariantViolation where
  invariantId := .inv02
  name := js "Single Active Ownership"
  severity := .high
  entityId := params.transferId
  entityType := .transfer
  message := js message

end

def acceptSafeTicketTransfer (options : IdempotencyOptions) (state : DomainState)
    (params : AcceptSafeTicketTransferParams) (riskContext : TransferRiskContext)
    (readings : AcceptReadings) (store : OwnershipTransferStore) :
    Option (Checked (DomainState × OwnershipAnswer)) × OwnershipTransferStore :=
  match getTransfer options store params.transferId
      (params.now.getD (.ofInt readings.lookupClock)) with
  | none => (none, store)
  | some (found, store) =>
    match found.filter params.admits with
    | none => (some (.error (acceptanceRefused params
        "The pending transfer is unavailable or this actor cannot accept it.")), store)
    | some p =>
      -- Everything about the ticket is checked before the proposal is settled.
      match transferTicket state (params.transfer p)
          { riskContext with now := riskContext.now.or params.now } readings.transferClock with
      | .error violation => (some (.error violation), store)
      | .ok next =>
        match accept options store params.acceptance ⟨readings.acceptClock, 0, [], []⟩ with
        | (none, store) => (none, store)
        | (some (.error _), store) => (some (.error (acceptanceRefused params
            "The transfer proposal could not be accepted.")), store)
        | (some (.ok answer), store) => (some (.ok (next, answer)), store)

variable {options : IdempotencyOptions} {state next : DomainState}
  {params : AcceptSafeTicketTransferParams} {riskContext : TransferRiskContext}
  {readings : AcceptReadings} {store store' : OwnershipTransferStore}

/-- The times at which an acceptance looks at the deadline. -/
def AcceptSafeTicketTransferParams.times (params : AcceptSafeTicketTransferParams)
    (readings : AcceptReadings) : List JsNum :=
  [params.now.getD (.ofInt readings.lookupClock), params.now.getD (.ofInt readings.acceptClock)]

/-- **A successful acceptance**: the proposal was pending and is accepted now, and the next state
has the transfer. -/
theorem acceptSafeTicketTransfer_ok {answer : OwnershipAnswer}
    (h : acceptSafeTicketTransfer options state params riskContext readings store =
      (some (.ok (next, answer)), store')) :
    ∃ p settledAt timestamp, store.proposalsById.get params.transferId = some p ∧
      p.status = .pending ∧ store' = store.settle (p.settledAs .accepted settledAt) ∧
      next.transfers = state.transfers ++ [(params.transfer p).record timestamp] := by
  rw [acceptSafeTicketTransfer] at h
  split at h
  · cases h
  next found looked hlookup =>
  split at h
  · cases h
  next p hadmits =>
  obtain ⟨hfound, hp⟩ := Option.filter_eq_some_iff.1 hadmits
  have hpending : p.status = .pending := by
    simp only [AcceptSafeTicketTransferParams.admits, Bool.and_eq_true, decide_eq_true_eq] at hp
    exact hp.1.2
  subst hfound
  obtain ⟨rfl, hget⟩ := getTransfer_pending hlookup hpending
  split at h
  · cases h
  next after htransfer =>
  obtain ⟨ticket, htransferred⟩ := transferredTo_of_ok htransfer
  obtain ⟨timestamp, htransfers⟩ := htransferred.transfers
  split at h
  · cases h
  · cases h
  next haccept =>
  cases h
  obtain ⟨p', settledAt, hp', -, rfl⟩ := accept_ok rfl haccept
  obtain rfl : p = p' := Option.mem_unique hget hp'
  exact ⟨p, settledAt, timestamp, hget, hpending, rfl, htransfers⟩

/-- **Any other acceptance** only lets overdue proposals expire. -/
theorem acceptSafeTicketTransfer_lapsed (hfiled : Filed store.proposalsById)
    {answer : Option (Checked (DomainState × OwnershipAnswer))}
    (h : acceptSafeTicketTransfer options state params riskContext readings store =
      (answer, store')) (hanswer : ∀ r, answer ≠ some (.ok r)) :
    Lapsed options (params.times readings) store.proposalsById store'.proposalsById := by
  rw [acceptSafeTicketTransfer] at h
  split at h
  · cases h
    exact Lapsed.refl _ _ _
  next found looked hlookup =>
  have hlooked : Lapsed options (params.times readings) store.proposalsById looked.proposalsById :=
    (getTransfer_lapsed hfiled hlookup).mono (by
      intro time htime
      rw [mem_singleton.1 htime]
      exact mem_cons_self)
  split at h
  · cases h
    exact hlooked
  split at h
  · cases h
    exact hlooked
  have haccepted : ∀ {r s}, accept options looked params.acceptance
      ⟨readings.acceptClock, 0, [], []⟩ = (r, s) → (∀ a, r ≠ some (.ok a)) →
      Lapsed options (params.times readings) store.proposalsById s.proposalsById := by
    intro r s haccept hr
    refine hlooked.trans ((accept_lapsed rfl (hlooked.filed hfiled) haccept hr).mono ?_)
    intro time htime
    rw [mem_singleton.1 htime]
    exact mem_cons_of_mem _ (mem_singleton_self _)
  split at h
  · next haccept =>
    cases h
    exact haccepted haccept nofun
  · next haccept =>
    cases h
    exact haccepted haccept nofun
  · cases h
    exact absurd rfl (hanswer _)

end Utix.Ownership
