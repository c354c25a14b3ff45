import Utix.Js.Value
import Utix.Lib.Dict

/-!
# The ticket domain

The types of `core/invariants/types.ts` and `core/transfer-risk/types.ts`: tickets and events in
maps under their ids, the log of completed transfers, the nonces that were spent, and the attempts
that the risk policy has looked at.

Amounts, times and counts are numbers as the language has them, so a caller may pass a fraction or
`NaN` and the checks of the code decide what becomes of it. A ticket's `nonce` is its ownership
version: the code only makes zero and successors, and it is a natural number here.

A violation carries the number and the name of the invariant, the severity, the entity and the text,
as the source has them, and the context where there is one. A mutation returns at the first
violation, and `Checked` is the monad of such early returns; the lemmas beside its three combinators
say what it means that a sequence of checks went through, so that a mutation is inverted by
rewriting with them. Maps keep the order of insertion, as those of the language do, since the
checker lists its findings in that order.
-/

namespace Utix.Tickets

open Js Lib

/-! ### Tickets and events -/

inductive TicketStatus
  | issued
  | transferred
  | locked
  | redeemed
  | expired
  | burned
  deriving DecidableEq

def TicketStatus.text : TicketStatus → JsString
  | .issued => js "issued"
  | .transferred => js "transferred"
  | .locked => js "locked"
  | .redeemed => js "redeemed"
  | .expired => js "expired"
  | .burned => js "burned"

inductive EventStatus
  | draft
  | active
  | paused
  | completed
  | cancelled
  deriving DecidableEq

structure Ticket where
  id : JsString
  eventId : JsString
  tierId : JsString
  ownerAddress : JsString
  priceStroops : JsNum
  status : TicketStatus
  issuedAt : JsNum
  validFrom : JsNum
  validUntil : JsNum
  fraudFlag : Bool
  nonce : ℕ
  metadataHash : JsString
  deriving DecidableEq

structure Event where
  id : JsString
  organizerAddress : JsString
  totalCapacity : JsNum
  issuedCount : JsNum
  status : EventStatus
  feeBasisPoints : JsNum
  deriving DecidableEq

structure TransferRecord where
  id : JsString
  ticketId : JsString
  fromAddress : JsString
  toAddress : JsString
  priceStroops : JsNum
  organizerFeeStroops : JsNum
  protocolFeeStroops : JsNum
  sellerProceedsStroops : JsNum
  nonce : JsString
  timestamp : JsNum
  deriving DecidableEq

/-! ### Transfer requests and their assessment -/

structure TransferTicketParams where
  id : JsString
  ticketId : JsString
  fromAddress : JsString
  toAddress : JsString
  priceStroops : JsNum
  organizerFeeStroops : JsNum
  protocolFeeStroops : JsNum
  sellerProceedsStroops : JsNum
  nonce : JsString
  timestamp : Option JsNum := none
  deriving DecidableEq

inductive TransferRiskStatus
  | reviewRequired
  | blocked
  | approved
  | rejected
  | completed
  deriving DecidableEq

inductive TransferRiskCode
  | transferReviewRequired
  | transferBlocked
  | transferRejected
  | transferCompleted
  | transferApproved
  | invalidRiskContext
  deriving DecidableEq

def TransferRiskCode.text : TransferRiskCode → JsString
  | .transferReviewRequired => js "transfer_review_required"
  | .transferBlocked => js "transfer_blocked"
  | .transferRejected => js "transfer_rejected"
  | .transferCompleted => js "transfer_completed"
  | .transferApproved => js "transfer_approved"
  | .invalidRiskContext => js "invalid_risk_context"

inductive RiskSignal
  | rapidResale
  | deviceChanges
  | recipientPattern
  | unusualTiming
  | repeatedAttempts
  deriving DecidableEq

structure TransferRiskAttempt where
  id : JsString
  request : TransferTicketParams
  ticketVersion : ℕ
  submittedAt : JsNum
  status : TransferRiskStatus
  deviceId : Option JsString
  score : JsNum
  signals : List RiskSignal
  deriving DecidableEq

/-- The kinds of actor an audit entry names. -/
inductive AuditActorKind
  | user
  | organizer
  | maintainer
  | system
  deriving DecidableEq

structure TransferRiskAudit where
  transferId : JsString
  actorKind : AuditActorKind
  actorId : JsString
  reason : JsString
  timestamp : JsNum
  status : TransferRiskStatus
  deriving DecidableEq

structure TransferRiskState where
  attempts : List TransferRiskAttempt
  audit : List TransferRiskAudit
  deriving DecidableEq

/-! ### The state -/

structure DomainState where
  events : Dict JsString Event
  tickets : Dict JsString Ticket
  transfers : List TransferRecord
  processedNonces : Finset JsString
  blacklistedAddresses : Finset JsString
  transferRisk : Option TransferRiskState

/-- `state.transferRisk?.attempts ?? []` -/
def DomainState.attempts (state : DomainState) : List TransferRiskAttempt :=
  (state.transferRisk.map TransferRiskState.attempts).getD []

/-- `state.transferRisk?.audit ?? []` -/
def DomainState.audit (state : DomainState) : List TransferRiskAudit :=
  (state.transferRisk.map TransferRiskState.audit).getD []

/-! ### Violations -/

inductive InvariantId
  | inv01
  | inv02
  | inv03
  | inv04
  | inv05
  | inv06
  | inv07
  | inv08
  | inv09
  | inv10
  | inv11
  deriving DecidableEq

/-- The severity of a violation. -/
inductive Severity
  | critical
  | high
  | medium
  deriving DecidableEq

/-- What a violation is about. -/
inductive EntityType
  | ticket
  | event
  | transfer
  | account
  deriving DecidableEq

structure InvariantViolation where
  invariantId : InvariantId
  name : JsString
  severity : Severity
  entityId : JsString
  entityType : EntityType
  message : JsString
  context : Option Fields := none
  code : Option TransferRiskCode := none
  deriving DecidableEq

/-- What a mutation answers: the next value, or the violation that stopped it. -/
abbrev Checked (α : Type) := Except InvariantViolation α

/-! ### Early returns

The mutations are chains of checks, each of which returns its violation at once. The three forms of
a check, and what it means that the rest of the chain succeeds.
-/

/-- `if (bad) return err(violation)` -/
def refuseIf (bad : Bool) (violation : InvariantViolation) : Checked Unit :=
  if bad then .error violation else .ok ()

/-- `if (!found) return err(violation)`, and the value that was found. -/
def orRefuse {α : Type} (found : Option α) (violation : InvariantViolation) : Checked α :=
  match found with
  | none => .error violation
  | some a => .ok a

/-- Return the violation that another check has found. -/
def refuseWith : Option InvariantViolation → Checked Unit
  | none => .ok ()
  | some violation => .error violation

variable {α β : Type} {b : β} {violation : InvariantViolation} {rest : Unit → Checked β}

@[simp] theorem refuseIf_bind_eq_ok {bad : Bool} :
    (refuseIf bad violation >>= rest) = .ok b ↔ bad = false ∧ rest () = .ok b := by
  cases bad
  · exact ⟨fun h ↦ ⟨rfl, h⟩, fun h ↦ h.2⟩
  · exact ⟨nofun, fun h ↦ nomatch h.1⟩

@[simp] theorem orRefuse_bind_eq_ok {found : Option α} {rest : α → Checked β} :
    (orRefuse found violation >>= rest) = .ok b ↔ ∃ a, found = some a ∧ rest a = .ok b := by
  cases found with
  | none => exact ⟨nofun, fun ⟨_, h, _⟩ ↦ nomatch h⟩
  | some a => exact ⟨fun h ↦ ⟨a, rfl, h⟩, fun ⟨_, h, hrest⟩ ↦ Option.some.inj h ▸ hrest⟩

@[simp] theorem refuseWith_bind_eq_ok {check : Option InvariantViolation} :
    (refuseWith check >>= rest) = .ok b ↔ check = none ∧ rest () = .ok b := by
  cases check with
  | none => exact ⟨fun h ↦ ⟨rfl, h⟩, fun h ↦ h.2⟩
  | some violation => exact ⟨nofun, fun h ↦ nomatch h.1⟩

end Utix.Tickets
