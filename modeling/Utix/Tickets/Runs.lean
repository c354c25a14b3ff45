import Utix.Lib.Run
import Utix.Tickets.Mutations

/-!
# Runs of the mutations

A run is a list of calls of `issueTicket`, `transferTicket` and `redeemTicket`, each applied to the
state that the last successful one returned; a refused call changes nothing. `ticketStep_cases` says
once what a call can do to the state, and every invariant of runs is proved from it.

Tickets and events lie in maps under a key and carry an id. The mutations look them up under the key
and write them back under the id, so most of what can be said needs that the two agree: `Keyed`.

A transfer is described by what it does to the state without the log of attempts (`TransferredTo`),
which only the risk policy reads. The calls take the context of the risk policy and the reading of
the clock as arguments, so a run says nothing about how time passes. The module ends with an event,
a ticket and calls on them, from which the witnesses and the counterexamples of the later modules
are made.
-/

namespace Utix.Tickets

open Js Lib

/-! ### Calls -/

/-- One call of a mutation, with the reading of the clock it sees. -/
inductive TicketCall
  | issue (params : IssueTicketParams) (clock : ℤ)
  | transfer (params : TransferTicketParams) (riskContext : TransferRiskContext) (clock : ℤ)
  | redeem (params : RedeemTicketParams)

/-- What the call answers. -/
def TicketCall.apply (state : DomainState) : TicketCall → Checked DomainState
  | .issue params clock => issueTicket state params clock
  | .transfer params riskContext clock => transferTicket state params riskContext clock
  | .redeem params => redeemTicket state params

/-- The state after a call. -/
def ticketStep (state : DomainState) (call : TicketCall) : DomainState :=
  match call.apply state with
  | .ok next => next
  | .error _ => state

variable {state : DomainState} {next : DomainState} {call : TicketCall}

theorem ticketStep_of_ok (h : call.apply state = .ok next) : ticketStep state call = next := by
  rw [ticketStep, h]

theorem ticketStep_of_error {violation : InvariantViolation}
    (h : call.apply state = .error violation) : ticketStep state call = state := by
  rw [ticketStep, h]

/-! ### What a call can do -/

/-- The parts of the state that a transfer touches, apart from the log of attempts. -/
structure TransferredTo (state next : DomainState) (params : TransferTicketParams)
    (ticket : Ticket) : Prop where
  valid : Transferable state params ticket
  events : next.events = state.events
  tickets : next.tickets = state.tickets.set ticket.id (ticket.handedTo params.toAddress)
  transfers : ∃ timestamp, next.transfers = state.transfers ++ [params.record timestamp]
  processedNonces : next.processedNonces = insert params.nonce state.processedNonces
  blacklistedAddresses : next.blacklistedAddresses = state.blacklistedAddresses

/-- What a successful transfer does, without the checks of the risk policy. -/
theorem transferredTo_of_ok {params : TransferTicketParams} {riskContext : TransferRiskContext}
    {clock : ℤ} (h : transferTicket state params riskContext clock = .ok next) :
    ∃ ticket, TransferredTo state next params ticket := by
  obtain ⟨ticket, hvalid, -, rfl⟩ := transferTicket_eq_ok.1 h
  exact ⟨ticket, hvalid, rfl, rfl, ⟨_, rfl⟩, rfl, rfl⟩

/-- **What a call can do to the state.** -/
theorem ticketStep_cases (state : DomainState) (call : TicketCall) :
    ticketStep state call = state ∨
    (∃ params clock event, call = .issue params clock ∧ Issuable state params event ∧
      ticketStep state call = state.withIssued event (params.ticket clock)) ∨
    (∃ params riskContext clock ticket, call = .transfer params riskContext clock ∧
      TransferredTo state (ticketStep state call) params ticket) ∨
    (∃ params ticket, call = .redeem params ∧ Redeemable state params ticket ∧
      ticketStep state call = state.withRedeemed ticket) := by
  cases happly : call.apply state with
  | error violation => exact .inl (ticketStep_of_error happly)
  | ok next =>
    rw [ticketStep_of_ok happly]
    refine .inr ?_
    cases call with
    | issue params clock =>
      obtain ⟨event, hissue, hnext⟩ := issueTicket_eq_ok.1 happly
      exact .inl ⟨params, clock, event, rfl, hissue, hnext⟩
    | transfer params riskContext clock =>
      obtain ⟨ticket, h⟩ := transferredTo_of_ok happly
      exact .inr (.inl ⟨params, riskContext, clock, ticket, rfl, h⟩)
    | redeem params =>
      obtain ⟨ticket, hredeem, hnext⟩ := redeemTicket_eq_ok.1 happly
      exact .inr (.inr ⟨params, ticket, rfl, hredeem, hnext⟩)

/-! ### Keys and ids -/

/-- Tickets and events lie under their own ids. -/
structure Keyed (state : DomainState) : Prop where
  tickets : ∀ id ticket, state.tickets.get id = some ticket → ticket.id = id
  events : ∀ id event, state.events.get id = some event → event.id = id

/-- In a keyed state a ticket is found under its own id. -/
theorem Keyed.get_ticket (h : Keyed state) {key : JsString} {ticket : Ticket}
    (hget : state.tickets.get key = some ticket) : state.tickets.get ticket.id = some ticket := by
  rw [h.tickets key ticket hget]
  exact hget

theorem get_set_of_keyed {α : Type} {d : Dict JsString α} {name : α → JsString}
    (h : ∀ id a, d.get id = some a → name a = id) (a : α) :
    ∀ id b, (d.set (name a) a).get id = some b → name b = id := Dict.forall_get_set h rfl

/-- **No call files a ticket or an event under a foreign id.** -/
theorem keyed_step (h : Keyed state) (call : TicketCall) : Keyed (ticketStep state call) := by
  rcases ticketStep_cases state call with hstep | ⟨params, clock, event, -, -, hstep⟩ |
    ⟨params, context, clock, ticket, -, htransfer⟩ | ⟨params, ticket, -, -, hstep⟩
  · rwa [hstep]
  · rw [hstep]
    exact ⟨get_set_of_keyed h.tickets (params.ticket clock),
      get_set_of_keyed h.events { event with issuedCount := event.issuedCount.add (.ofInt 1) }⟩
  · refine ⟨?_, by rw [htransfer.events]; exact h.events⟩
    rw [htransfer.tickets]
    exact get_set_of_keyed h.tickets (ticket.handedTo params.toAddress)
  · rw [hstep]
    exact ⟨get_set_of_keyed h.tickets { ticket with status := .redeemed }, h.events⟩

/-! ### An event to try things on -/

/-- An event with two places. -/
def gala : Event where
  id := js "gala"
  organizerAddress := js "ORGANIZER"
  totalCapacity := .ofInt 2
  issuedCount := .ofInt 0
  status := .active
  feeBasisPoints := .ofInt 250

/-- A state with this event and nothing else. -/
def galaState : DomainState where
  events := Dict.empty.set (js "gala") gala
  tickets := .empty
  transfers := []
  processedNonces := ∅
  blacklistedAddresses := ∅
  transferRisk := none

/-- A ticket of the event for an owner. -/
def ticketFor (id owner : String) : IssueTicketParams where
  id := js id
  eventId := js "gala"
  tierId := js "floor"
  ownerAddress := js owner
  priceStroops := .ofInt 100
  validFrom := .ofInt 0
  validUntil := .ofInt 9000000

/-- Issue the ticket `t1` to `ALICE`. -/
def issueT1 : TicketCall := .issue (ticketFor "t1" "ALICE") 0

/-- The transfer of `t1` from `ALICE` to `BOB`. -/
def aliceToBob : TransferTicketParams where
  id := js "x1"
  ticketId := js "t1"
  fromAddress := js "ALICE"
  toAddress := js "BOB"
  priceStroops := .ofInt 100
  organizerFeeStroops := .ofInt 5
  protocolFeeStroops := .ofInt 1
  sellerProceedsStroops := .ofInt 94
  nonce := js "n1"

/-- `ALICE` redeems `t1`. -/
def redeemT1 : TicketCall := .redeem
  { ticketId := js "t1", claimerAddress := js "ALICE", timestamp := .ofInt 1000 }

end Utix.Tickets
