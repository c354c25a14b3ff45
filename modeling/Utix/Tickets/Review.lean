import Utix.Tickets.Runs

/-!
# The transfer review workflow

`core/transfer-risk/workflow.ts`. A transfer that the risk policy does not allow is recorded as an
attempt, blocked or waiting for review; a reviewer approves or rejects a waiting attempt, and the
sender retries an approved one with the same request.

`requestTicketTransfer` reads the clock up to three times when its context carries no `now`: for the
assessment, for the record, and in `transferTicket`.

A request with the id or the nonce of an earlier attempt is answered from that attempt: it must be
the same request, and only an approved one is submitted again, if the ticket still has the version
it had. The answer of the source repeats parts of the state; here it is the next state or the error.
`ReviewEffect` lists what a call can do to the state, and the laws of runs are proved from that
list.
-/

namespace Utix.Tickets

open Js

/-! ### Requests -/

inductive TransferWorkflowError
  | idempotencyConflict
  | invalidTransfer
  | reviewNotFound
  | reviewForbidden
  | invalidReviewReason
  | reviewAlreadyDecided
  | staleReview
  | invalidRiskContext
  deriving DecidableEq

/-- The readings of the clock in one request. -/
structure RequestClocks where
  assess : ℤ
  record : ℤ
  transfer : ℤ

/-- The status under which a transfer that is not allowed is recorded. -/
def TransferRiskAssessment.status (assessment : TransferRiskAssessment) : TransferRiskStatus :=
  if assessment.code = .transferRejected then .rejected
  else if assessment.disposition = .review then .reviewRequired
  else .blocked

section

variable (state : DomainState)

/-- The part of `requestTicketTransfer` after the look at earlier attempts. -/
def submitTransfer (request : TransferTicketParams) (context : TransferRiskContext)
    (clocks : RequestClocks) : Except TransferWorkflowError DomainState :=
  match validateTicketTransfer state request with
  | .error _ => .error .invalidTransfer
  | .ok ticket =>
    let assessment := assessTransferRisk state request context clocks.assess
    if assessment.code = .invalidRiskContext then .error .invalidRiskContext
    else if assessment.disposition ≠ .allow then
      .ok (recordTransferAttempt state request ticket.nonce assessment.status assessment context
        clocks.record)
    else
      match transferTicket state request context clocks.transfer with
      | .ok next => .ok next
      | .error _ => .error .invalidTransfer

def requestTicketTransfer (request : TransferTicketParams) (context : TransferRiskContext)
    (clocks : RequestClocks) : Except TransferWorkflowError DomainState :=
  if !validRiskContext context then .error .invalidRiskContext
  else
    match existingAttempt state request with
    | none => submitTransfer state request context clocks
    | some existing =>
      if !sameTransfer existing.request request then .error .idempotencyConflict
      else if existing.status ≠ .approved then .ok state
      else if (state.tickets.get request.ticketId).map Ticket.nonce ≠
          some existing.ticketVersion then
        .error .staleReview
      else submitTransfer state request context clocks

/-! ### Reviews -/

inductive ReviewerKind
  | organizer
  | maintainer
  deriving DecidableEq

/-- The kind under which a reviewer is audited. -/
def ReviewerKind.audited : ReviewerKind → AuditActorKind
  | .organizer => .organizer
  | .maintainer => .maintainer

structure TransferReviewer where
  kind : ReviewerKind
  id : JsString
  deriving DecidableEq

/-- What a reviewer decides. -/
inductive ReviewDecision
  | approve
  | reject
  deriving DecidableEq

/-- The status that a decision gives. -/
def ReviewDecision.status : ReviewDecision → TransferRiskStatus
  | .approve => .approved
  | .reject => .rejected

def eventOfTicket (ticketId : JsString) : Option Event :=
  (state.tickets.get ticketId).bind fun ticket ↦ state.events.get ticket.eventId

def mayReview (ticketId : JsString) (actor : TransferReviewer) : Bool :=
  match eventOfTicket state ticketId with
  | none => false
  | some event => !isBlank actor.id &&
      (actor.kind = .maintainer || (actor.kind = .organizer && actor.id = event.organizerAddress))

/-- `/^[a-z0-9_.:-]{1,64}$/` -/
def isReviewReason (s : JsString) : Bool :=
  1 ≤ s.length && s.length ≤ 64 &&
    s.all fun c ↦ isLower c || isDigit c || c == 95 || c == 46 || c == 58 || c == 45

/-- The ticket of an attempt is no longer as it was when the attempt was made. -/
def isStale (attempt : TransferRiskAttempt) : Bool :=
  match state.tickets.get attempt.request.ticketId with
  | none => true
  | some ticket => ticket.nonce ≠ attempt.ticketVersion ||
      ticket.ownerAddress ≠ attempt.request.fromAddress ||
      (ticket.status ≠ .issued && ticket.status ≠ .transferred) || ticket.fraudFlag

/-- The state after a decision on an attempt. -/
def DomainState.withDecision (transferId : JsString) (decision : ReviewDecision)
    (actor : TransferReviewer) (reason : JsString) (now : JsNum) : DomainState :=
  let attempts := state.attempts.map fun item ↦
    if item.id = transferId then { item with status := decision.status } else item
  let entry : TransferRiskAudit :=
    ⟨transferId, actor.kind.audited, actor.id, reason, now, decision.status⟩
  { state with transferRisk := some ⟨attempts, state.audit ++ [entry]⟩ }

def reviewTicketTransfer (transferId : JsString) (decision : ReviewDecision)
    (actor : TransferReviewer) (reason : JsString) (now : JsNum) :
    Except TransferWorkflowError DomainState :=
  match state.attempts.find? fun item ↦ item.id = transferId with
  | none => .error .reviewNotFound
  | some attempt =>
    if !mayReview state attempt.request.ticketId actor || actor.id = attempt.request.fromAddress ||
        actor.id = attempt.request.toAddress then .error .reviewForbidden
    else if !isReviewReason reason then .error .invalidReviewReason
    else if !now.isSafeInteger || now.less attempt.submittedAt then .error .invalidRiskContext
    else if attempt.status ≠ .reviewRequired then .error .reviewAlreadyDecided
    else if isStale state attempt then .error .staleReview
    else .ok (state.withDecision transferId decision actor reason now)

/-! ### What a success means -/

/-- A request that may be submitted: it repeats no attempt, or an approved one, unchanged and still
at the ticket's version. -/
def Admissible (request : TransferTicketParams) : Prop :=
  ∀ existing, existingAttempt state request = some existing →
    sameTransfer existing.request request = true ∧ existing.status = .approved ∧
    (state.tickets.get request.ticketId).map Ticket.nonce = some existing.ticketVersion

end

/-- A request that was recorded instead of completed. -/
structure Recorded (state next : DomainState) (request : TransferTicketParams)
    (context : TransferRiskContext) (clock : ℤ) (ticket : Ticket)
    (assessment : TransferRiskAssessment) : Prop where
  valid : Transferable state request ticket
  next_eq : next = recordTransferAttempt state request ticket.nonce assessment.status assessment
    context clock

theorem status_ne (assessment : TransferRiskAssessment) :
    assessment.status ≠ .completed ∧ assessment.status ≠ .approved := by
  rw [TransferRiskAssessment.status]
  split_ifs <;> simp

variable {request : TransferTicketParams} {context : TransferRiskContext} {clocks : RequestClocks}

/-- A submission that succeeds is recorded, or it is the transfer itself. -/
theorem submitTransfer_cases {state next : DomainState}
    (h : submitTransfer state request context clocks = .ok next) :
    (∃ ticket assessment, Recorded state next request context clocks.record ticket assessment) ∨
    transferTicket state request context clocks.transfer = .ok next := by
  rw [submitTransfer] at h
  split at h
  · cases h
  next ticket hvalid =>
  simp only at h
  split at h
  · cases h
  split at h
  · exact .inl ⟨ticket, _, validateTicketTransfer_eq_ok.1 hvalid, (Except.ok.inj h).symm⟩
  split at h
  · next next' htransfer =>
    obtain rfl := Except.ok.inj h
    exact .inr htransfer
  · cases h

/-- **What a successful request can do.** -/
theorem requestTicketTransfer_cases {state next : DomainState}
    (h : requestTicketTransfer state request context clocks = .ok next) :
    next = state ∨ Admissible state request ∧
      ((∃ ticket assessment, Recorded state next request context clocks.record ticket assessment) ∨
        transferTicket state request context clocks.transfer = .ok next) := by
  rw [requestTicketTransfer] at h
  split at h
  · cases h
  split at h
  · next hnone =>
    refine .inr ⟨fun existing hexisting ↦ ?_, submitTransfer_cases h⟩
    rw [hnone] at hexisting
    cases hexisting
  · next existing hexisting =>
    split_ifs at h with hsame hstatus hversion
    · exact .inl (Except.ok.inj h).symm
    refine .inr ⟨fun other hother ↦ ?_, submitTransfer_cases h⟩
    obtain rfl : existing = other := Option.mem_unique hexisting hother
    simp only [Bool.not_eq_true, Bool.not_eq_false', ne_eq, not_not] at hsame hstatus hversion
    exact ⟨hsame, hstatus, hversion⟩

/-- What a decision has checked. -/
structure Reviewable (state : DomainState) (transferId : JsString) (actor : TransferReviewer)
    (attempt : TransferRiskAttempt) : Prop where
  attempt_eq : state.attempts.find? (fun item ↦ item.id = transferId) = some attempt
  authorized : mayReview state attempt.request.ticketId actor = true
  not_sender : actor.id ≠ attempt.request.fromAddress
  not_recipient : actor.id ≠ attempt.request.toAddress
  waiting : attempt.status = .reviewRequired

/-- **What a successful decision is.** -/
theorem reviewTicketTransfer_eq_ok {state next : DomainState} {transferId : JsString}
    {decision : ReviewDecision} {actor : TransferReviewer} {reason : JsString} {now : JsNum}
    (h : reviewTicketTransfer state transferId decision actor reason now = .ok next) :
    ∃ attempt, Reviewable state transferId actor attempt ∧
      next = state.withDecision transferId decision actor reason now := by
  rw [reviewTicketTransfer] at h
  split at h
  · cases h
  next attempt hattempt =>
  split_ifs at h with hforbidden hreason hclock hstatus hstale
  simp only [Bool.or_eq_true, Bool.not_eq_true', decide_eq_true_eq, not_or, Bool.not_eq_false,
    ne_eq, not_not] at hforbidden hstatus
  exact ⟨attempt, ⟨hattempt, hforbidden.1.1, hforbidden.1.2, hforbidden.2, hstatus⟩,
    (Except.ok.inj h).symm⟩

/-! ### Runs -/

/-- One call of the workflow, or a redemption. -/
inductive ReviewCall
  | request (request : TransferTicketParams) (context : TransferRiskContext)
      (clocks : RequestClocks)
  | review (transferId : JsString) (decision : ReviewDecision) (actor : TransferReviewer)
      (reason : JsString) (now : JsNum)
  | redeem (params : RedeemTicketParams)

/-- The state after a call; a refused call changes nothing. -/
def reviewStep (state : DomainState) : ReviewCall → DomainState
  | .request request context clocks =>
    match requestTicketTransfer state request context clocks with
    | .ok next => next
    | .error _ => state
  | .review transferId decision actor reason now =>
    match reviewTicketTransfer state transferId decision actor reason now with
    | .ok next => next
    | .error _ => state
  | .redeem params =>
    match redeemTicket state params with
    | .ok next => next
    | .error _ => state

/-- **What a call can do to the state.** -/
inductive ReviewEffect (state : DomainState) : ReviewCall → DomainState → Prop
  | idle (call : ReviewCall) : ReviewEffect state call state
  | recorded {request : TransferTicketParams} {context : TransferRiskContext}
      {clocks : RequestClocks} {next : DomainState} {ticket : Ticket}
      {assessment : TransferRiskAssessment} (hadmissible : Admissible state request)
      (hrecorded : Recorded state next request context clocks.record ticket assessment) :
      ReviewEffect state (.request request context clocks) next
  | transferred {request : TransferTicketParams} {context : TransferRiskContext}
      {clocks : RequestClocks} {next : DomainState} (hadmissible : Admissible state request)
      (htransfer : transferTicket state request context clocks.transfer = .ok next) :
      ReviewEffect state (.request request context clocks) next
  | decided {transferId : JsString} {decision : ReviewDecision} {actor : TransferReviewer}
      {reason : JsString} {now : JsNum} {attempt : TransferRiskAttempt}
      (hreview : Reviewable state transferId actor attempt) :
      ReviewEffect state (.review transferId decision actor reason now)
        (state.withDecision transferId decision actor reason now)
  | redeemed {params : RedeemTicketParams} {ticket : Ticket}
      (hredeem : Redeemable state params ticket) :
      ReviewEffect state (.redeem params) (state.withRedeemed ticket)

/-- Every call has one of the effects that are listed. -/
theorem reviewStep_effect (state : DomainState) (call : ReviewCall) :
    ReviewEffect state call (reviewStep state call) := by
  cases call with
  | request request context clocks =>
    rw [reviewStep]
    split
    · next next hnext =>
      rcases requestTicketTransfer_cases hnext with rfl | ⟨hadmissible, ⟨ticket, assessment, h⟩ | h⟩
      · exact .idle _
      · exact .recorded hadmissible h
      · exact .transferred hadmissible h
    · exact .idle _
  | review transferId decision actor reason now =>
    rw [reviewStep]
    split
    · next next hnext =>
      obtain ⟨attempt, hreview, rfl⟩ := reviewTicketTransfer_eq_ok hnext
      exact .decided hreview
    · exact .idle _
  | redeem params =>
    rw [reviewStep]
    split
    · next next hnext =>
      obtain ⟨ticket, hredeem, rfl⟩ := redeemTicket_eq_ok.1 hnext
      exact .redeemed hredeem
    · exact .idle _

end Utix.Tickets
