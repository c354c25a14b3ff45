import Utix.Tickets.Runs

/-!
# The supply of tickets

Two questions about runs of the mutations: does the checker accept every state they reach, and does
an event's `issuedCount` count its tickets?

**The checker.** INV-09 calls a nonce replayed when it is among the processed ones, but the transfer
that put it there is in the log too. So `verifyAll` complains about every state that has completed a
transfer, and the question is answered by `always_verified_iff_no_transfer`: given bounded prices
and counters that cover the tickets, the checker accepts every state of a run exactly if no transfer
of the run goes through. INV-07 is the other gap: `issueTicket` never looks at the upper bound.

**The counter.** `issueTicket` files a ticket under the id the caller chose and never asks whether
there is one. A run that never reuses an id keeps the counters exact and lets no finished ticket
change (`meets_ticketLaw`); one that does brings a redeemed ticket back
(`redeemed_ticket_reissued`).
-/

namespace Utix.Tickets

open Js Lib List DomainState Dict JsNum

/-! ### Counting the tickets of an event -/

/-- Filing a ticket adds at most one to its event, and nothing to the others; under an unused id it
adds exactly one. -/
theorem actualTickets_withIssued (state : DomainState) (event : Event) (ticket : Ticket)
    (id : JsString) :
    (state.withIssued event ticket).actualTickets id ≤
        state.actualTickets id + (if ticket.eventId = id then 1 else 0) ∧
      (state.tickets.get ticket.id = none → (state.withIssued event ticket).actualTickets id =
        state.actualTickets id + if ticket.eventId = id then 1 else 0) := by
  have hcount := state.tickets.countP_set ticket.id ticket fun t ↦ t.eventId = id
  simp only [decide_eq_true_eq] at hcount
  simp only [DomainState.actualTickets, withIssued]
  refine ⟨by omega, fun hnew ↦ ?_⟩
  rw [hnew, Option.elim_none] at hcount
  omega

variable {state : DomainState} {ticket : Ticket}

variable {event : Event} {id : JsString}

/-- Only the event of the new ticket changes. -/
theorem get_events_withIssued {e : Event} {eventId : JsString} (hid : event.id = eventId)
    (h : (state.withIssued event ticket).events.get id = some e) :
    (id = eventId ∧ e = { event with issuedCount := event.issuedCount.add (.ofInt 1) }) ∨
      (id ≠ eventId ∧ state.events.get id = some e) := by
  subst hid
  exact get_set_eq_some h

/-- A ticket that changes hands or status still counts for its event. -/
theorem countP_replace {tickets : Dict JsString Ticket} (h : tickets.get ticket.id = some ticket)
    (changed : Ticket) (hevent : changed.eventId = ticket.eventId) (id : JsString) :
    (tickets.set ticket.id changed).values.countP (fun t ↦ t.eventId = id) =
      tickets.values.countP fun t ↦ t.eventId = id := by
  have hcount := tickets.countP_set ticket.id changed fun t ↦ t.eventId = id
  simp only [h, Option.elim_some, hevent] at hcount
  omega

/-! ### The checker along a run -/

/-- The counter of every event is an integer that covers its tickets. -/
def Backed (state : DomainState) : Prop :=
  ∀ id event, state.events.get id = some event →
    ∃ n : ℤ, event.issuedCount = .ofInt n ∧ (state.actualTickets id : ℤ) ≤ n

/-- The calls that `transferTicket` does not let through: not valid, or not allowed. -/
def NoTransfer (state : DomainState) : TicketCall → Prop
  | .transfer params riskContext clock =>
    ∀ ticket, validateTicketTransfer state params = .ok ticket →
      (assessTransferRisk state params (riskContext.at clock) clock).disposition ≠ .allow
  | _ => True

/-- A price that the checker accepts, where `issueTicket` does not look. -/
def PriceBounded : TicketCall → Prop
  | .issue params _ => stroopLimit.less params.priceStroops = false
  | _ => True

/-- What a run without transfers keeps. -/
structure Accepted (state : DomainState) : Prop where
  keyed : Keyed state
  backed : Backed state
  verified : verifyAll state = []
  transfers : state.transfers = []

theorem Ticket.Sound.of_blacklist {next : DomainState} (h : ticket.Sound state)
    (heq : next.blacklistedAddresses = state.blacklistedAddresses) : ticket.Sound next :=
  ⟨h.price, h.window, h.fraud, by rw [heq]; exact h.blacklist⟩

variable {params : IssueTicketParams}

theorem sound_redeemed {params : RedeemTicketParams} (h : Redeemable state params ticket)
    (hsound : ticket.Sound state) (next : DomainState)
    (hnext : next.blacklistedAddresses = state.blacklistedAddresses) :
    ({ ticket with status := .redeemed } : Ticket).Sound next where
  price := hsound.price
  window := hsound.window
  fraud hflag := absurd hflag (by simp [h.unflagged])
  blacklist hmem := by
    -- a redeemable ticket is loose, so its owner was not on the list before either
    have hloose := hsound.blacklist (hnext ▸ hmem)
    have hburned : ticket.status ≠ .burned := by
      intro hburned
      have hterminal := isTerminal_of_canTransitionStatus h.transition
      rw [hburned] at hterminal
      cases hterminal
    simp [Ticket.isLoose, h.unlocked, hburned] at hloose

/-- Issuing at a bounded price leaves nothing for the checker to report. -/
theorem accepted_issue (h : Accepted state) (hissue : Issuable state params event)
    (hprice : stroopLimit.less params.priceStroops = false) (clock : ℤ)
    (hkeyed : Keyed (state.withIssued event (params.ticket clock))) :
    Accepted (state.withIssued event (params.ticket clock)) := by
  obtain ⟨htickets, hevents, htransfers⟩ := verifyAll_eq_nil_iff.1 h.verified
  have hid : event.id = params.eventId := h.keyed.events _ _ hissue.event_eq
  obtain ⟨n, hn, hcover⟩ := h.backed _ _ hissue.event_eq
  have hcount : ∀ id, (state.withIssued event (params.ticket clock)).actualTickets id ≤
      state.actualTickets id + if params.eventId = id then 1 else 0 :=
    fun id ↦ (actualTickets_withIssued state event (params.ticket clock) id).1
  refine ⟨hkeyed, ?_, verifyAll_eq_nil_iff.2 ⟨?_, ?_, htransfers⟩, h.transfers⟩
  · intro id e he
    have hle := hcount id
    rcases get_events_withIssued hid he with ⟨rfl, rfl⟩ | ⟨hne, he⟩
    · refine ⟨n + 1, by simp only [hn, ofInt_add], ?_⟩
      rw [if_pos rfl] at hle
      omega
    · obtain ⟨m, hm, hcover⟩ := h.backed id e he
      rw [if_neg (Ne.symm hne)] at hle
      exact ⟨m, hm, by omega⟩
  · refine forall_get_set (fun id t ht ↦ (htickets id t ht).of_blacklist rfl)
      ⟨?_, hissue.window, (by cases ·), fun hmem ↦ absurd hmem hissue.owner⟩
    simp [priceInvalid, IssueTicketParams.ticket, hissue.integer, hissue.nonneg, hprice]
  · intro id e he
    have hle := hcount id
    rcases get_events_withIssued hid he with ⟨rfl, rfl⟩ | ⟨hne, he⟩
    · rw [if_pos rfl] at hle
      have hroom := hissue.room
      rw [hn, ofInt_add] at hroom
      refine ⟨?_, (hevents _ _ hissue.event_eq).capacity_nonneg, ?_, ?_⟩
      · simp only [hn, ofInt_add, less_ofInt, decide_eq_false_iff_not]
        omega
      · simpa only [hn, ofInt_add] using hroom
      · exact less_ofInt_eq_false_of_le hroom (by omega)
    · rw [if_neg (Ne.symm hne)] at hle
      have hsound := hevents id e he
      exact ⟨hsound.issued_nonneg, hsound.capacity_nonneg, hsound.issued_le,
        less_ofInt_eq_false_of_le hsound.actual_le (by omega)⟩

variable {call : TicketCall}

/-- The step: no call but a transfer makes the checker report anything. -/
theorem accepted_step (h : Accepted state) (hprice : PriceBounded call)
    (hno : NoTransfer state call) : Accepted (ticketStep state call) := by
  have hkeyed := keyed_step h.keyed call
  rcases ticketStep_cases state call with hstep | ⟨params, clock, event, rfl, hissue, hstep⟩ |
    ⟨params, context, clock, ticket, rfl, htransfer⟩ | ⟨params, ticket, rfl, hredeem, hstep⟩
  · rwa [hstep]
  · rw [hstep] at hkeyed ⊢
    exact accepted_issue h hissue hprice clock hkeyed
  · -- a transfer that is let through is excluded, so the step cannot have been one
    cases happly : TicketCall.apply state (.transfer params context clock) with
    | error violation => rwa [ticketStep_of_error happly]
    | ok next =>
      obtain ⟨found, hfound, hallow, -⟩ := transferTicket_eq_ok.1 happly
      exact absurd hallow (hno found (validateTicketTransfer_eq_ok.2 hfound))
  · rw [hstep] at hkeyed ⊢
    obtain ⟨htickets, hevents, htransfers⟩ := verifyAll_eq_nil_iff.1 h.verified
    have hcount : ∀ id, (state.withRedeemed ticket).actualTickets id = state.actualTickets id :=
      countP_replace (h.keyed.get_ticket hredeem.ticket_eq) { ticket with status := .redeemed } rfl
    refine ⟨hkeyed, ?_, verifyAll_eq_nil_iff.2 ⟨?_, ?_, htransfers⟩, h.transfers⟩
    · intro id e he
      rw [hcount]
      exact h.backed id e he
    · exact forall_get_set (fun id t ht ↦ (htickets id t ht).of_blacklist rfl)
        (sound_redeemed hredeem (htickets _ _ hredeem.ticket_eq) _ rfl)
    · intro id e he
      rw [hcount]
      exact hevents id e he

/-- If the checker accepts the state after a call, the call was no successful transfer. -/
theorem noTransfer_of_verified (h : Accepted state)
    (hver : verifyAll (ticketStep state call) = []) : NoTransfer state call := by
  cases call with
  | issue params clock => trivial
  | redeem params => trivial
  | transfer params riskContext clock =>
    intro ticket hvalid hallow
    have happly : TicketCall.apply state (.transfer params riskContext clock) = .ok _ :=
      transferTicket_eq_ok.2 ⟨ticket, validateTicketTransfer_eq_ok.1 hvalid, hallow, rfl⟩
    obtain ⟨found, hfound⟩ := transferredTo_of_ok happly
    rw [ticketStep_of_ok happly] at hver
    obtain ⟨-, -, htransfers⟩ := verifyAll_eq_nil_iff.1 hver
    obtain ⟨timestamp, htransfer⟩ := hfound.transfers
    rw [htransfer, h.transfers, nil_append, transferViolations, hfound.processedNonces]
      at htransfers
    simp [TransferTicketParams.record] at htransfers

/-- **The checker accepts every state of a run exactly if no transfer goes through**, from any state
it accepts that has no transfers and whose counters cover its tickets, at prices it accepts. -/
theorem always_verified_iff_no_transfer (state : DomainState) (hkeyed : Keyed state)
    (hbacked : Backed state) (hverified : verifyAll state = []) (hempty : state.transfers = [])
    (calls : List TicketCall) (hprices : ∀ call ∈ calls, PriceBounded call) :
    Always ticketStep (fun s ↦ verifyAll s = []) state calls ↔
      Meets ticketStep NoTransfer state calls := by
  have hstart : Accepted state := ⟨hkeyed, hbacked, hverified, hempty⟩
  clear hkeyed hbacked hverified hempty
  induction calls generalizing state with
  | nil => exact Iff.rfl
  | cons call calls ih =>
    have hprice := hprices call mem_cons_self
    have hrest := fun c hc ↦ hprices c (mem_cons_of_mem call hc)
    constructor
    · rintro ⟨hver, hlater⟩
      have hno := noTransfer_of_verified hstart hver
      exact ⟨hno, (ih _ hrest (accepted_step hstart hprice hno)).1 hlater⟩
    · rintro ⟨hno, hlater⟩
      have hnext := accepted_step hstart hprice hno
      exact ⟨hnext.verified, (ih _ hrest hnext).2 hlater⟩

/-! ### A state with events only -/

/-- Only events, filed under their ids, and no ticket issued. -/
structure EventsOnly (state : DomainState) : Prop where
  tickets : state.tickets = .empty
  ids : ∀ id event, state.events.get id = some event → event.id = id
  unissued : ∀ id event, state.events.get id = some event → event.issuedCount = .ofInt 0

theorem eventsOnly_galaState : EventsOnly galaState := by
  have hget : ∀ id event, galaState.events.get id = some event →
      id = js "gala" ∧ event = gala := by
    intro id event h
    exact (get_set_eq_some h).resolve_right (by simp)
  refine ⟨rfl, fun id event h ↦ ?_, fun id event h ↦ ?_⟩
  · obtain ⟨rfl, rfl⟩ := hget id event h
    rfl
  · obtain ⟨rfl, rfl⟩ := hget id event h
    rfl

theorem EventsOnly.actualTickets (h : EventsOnly state) (id : JsString) :
    state.actualTickets id = 0 := by
  rw [DomainState.actualTickets, h.tickets]
  rfl

theorem EventsOnly.keyed (h : EventsOnly state) : Keyed state := by
  refine ⟨fun id ticket hget ↦ ?_, h.ids⟩
  rw [h.tickets] at hget
  cases hget

/-- The checker accepts a ticket that is issued, and complains once it is transferred. -/
theorem verifyAll_complains_after_transfer :
    verifyAll galaState = [] ∧ galaState.transfers = [] ∧ galaState.processedNonces = ∅ ∧
    verifyAll (run ticketStep galaState [issueT1]) = [] ∧
    (verifyAll (run ticketStep galaState [issueT1, .transfer aliceToBob {} 1000])).map
      InvariantViolation.invariantId = [.inv09] := by
  decide +kernel

/-- A run without transfers, in which every state is accepted. -/
theorem always_verified_issue_redeem :
    Always ticketStep (fun s ↦ verifyAll s = []) galaState [issueT1, redeemT1] := by
  have hbacked : Backed galaState := by
    intro id event h
    exact ⟨0, eventsOnly_galaState.unissued id event h,
      by rw [eventsOnly_galaState.actualTickets]; exact le_rfl⟩
  refine (always_verified_iff_no_transfer galaState eventsOnly_galaState.keyed hbacked
    (by decide +kernel) rfl _ ?_).2 ⟨trivial, trivial, trivial⟩
  intro call hcall
  rcases mem_cons.1 hcall with rfl | hcall
  · show stroopLimit.less (.ofInt 100) = false
    decide +kernel
  · rw [mem_singleton.1 hcall]
    trivial

/-! ### Finished tickets and exact counters -/

/-- What every call of a run should respect. -/
structure TicketLaw (before : DomainState) (call : TicketCall) (after : DomainState) : Prop where
  /-- A ticket with a terminal status stays as it is. -/
  terminal : ∀ id ticket, before.tickets.get id = some ticket → ticket.status.isTerminal = true →
    after.tickets.get id = some ticket
  /-- No issuance replaces a ticket. -/
  issue : ∀ params clock, call = .issue params clock →
    ∀ id ticket, before.tickets.get id = some ticket → after.tickets.get id = some ticket
  /-- The counter of every event is the number of its tickets. -/
  count : ∀ id event, after.events.get id = some event →
    event.issuedCount = .ofInt (after.actualTickets id)

/-- An issuance names an id that no ticket has. -/
def FreshId (state : DomainState) : TicketCall → Prop
  | .issue params _ => state.tickets.get params.id = none
  | _ => True

/-- Filed under their ids, and counted exactly. -/
structure Counted (state : DomainState) : Prop where
  keyed : Keyed state
  count : ∀ id event, state.events.get id = some event →
    event.issuedCount = .ofInt (state.actualTickets id)

theorem EventsOnly.counted (h : EventsOnly state) : Counted state := by
  refine ⟨h.keyed, fun id event hget ↦ ?_⟩
  rw [h.actualTickets]
  exact h.unissued id event hget

/-- The step: the counters stay exact as long as ids are not reused. -/
theorem counted_step (h : Counted state) (hfresh : FreshId state call) :
    Counted (ticketStep state call) := by
  refine ⟨keyed_step h.keyed call, fun id e he ↦ ?_⟩
  rcases ticketStep_cases state call with hstep | ⟨params, clock, event, rfl, hissue, hstep⟩ |
    ⟨params, context, clock, ticket, rfl, htransfer⟩ | ⟨params, ticket, rfl, hredeem, hstep⟩
  · rw [hstep] at he ⊢
    exact h.count id e he
  · rw [hstep] at he ⊢
    rw [(actualTickets_withIssued state event (params.ticket clock) id).2 hfresh]
    rcases get_events_withIssued (h.keyed.events _ _ hissue.event_eq) he with ⟨rfl, rfl⟩ | ⟨hne, he⟩
    · have hcount := h.count _ _ hissue.event_eq
      have hevent : (params.ticket clock).eventId = params.eventId := rfl
      rw [if_pos hevent]
      show event.issuedCount.add (.ofInt 1) = _
      rw [hcount, ofInt_add]
      push_cast
      rfl
    · have hevent : ¬ (params.ticket clock).eventId = id := Ne.symm hne
      rw [if_neg hevent]
      exact h.count id e he
  · rw [htransfer.events] at he
    have hcount := countP_replace (h.keyed.get_ticket htransfer.valid.ticket_eq)
      (ticket.handedTo params.toAddress) rfl id
    rw [DomainState.actualTickets, htransfer.tickets, hcount]
    exact h.count id e he
  · rw [hstep] at he ⊢
    have hcount := countP_replace (h.keyed.get_ticket hredeem.ticket_eq)
      { ticket with status := .redeemed } rfl id
    rw [DomainState.actualTickets, withRedeemed, hcount]
    exact h.count id e he

/-- A ticket filed under an unused id covers no other. -/
theorem get_tickets_withIssued {clock : ℤ} (hfresh : FreshId state (.issue params clock))
    (event : Event) {found : Ticket} (hfound : state.tickets.get id = some found) :
    (state.withIssued event (params.ticket clock)).tickets.get id = some found := by
  rw [withIssued, get_set, if_neg ?_]
  · exact hfound
  · rintro rfl
    exact absurd (hfresh.symm.trans hfound) nofun

/-- A ticket that a transfer or a redemption rewrites was not finished, so a finished one is none of
those. -/
theorem get_set_of_terminal (hkeyed : Keyed state) {key : JsString} {found changed : Ticket}
    {toStatus : TicketStatus} (hticket : state.tickets.get key = some ticket)
    (htransition : canTransitionStatus ticket.status toStatus = none)
    (hfound : state.tickets.get id = some found) (hterminal : found.status.isTerminal = true) :
    (state.tickets.set ticket.id changed).get id = some found := by
  rw [get_set, if_neg ?_]
  · exact hfound
  rintro rfl
  obtain rfl : ticket = found :=
    Option.some.inj ((hkeyed.get_ticket hticket).symm.trans hfound)
  rw [isTerminal_of_canTransitionStatus htransition] at hterminal
  cases hterminal

/-- With exact counters and a new id, a call obeys the law. -/
theorem ticketLaw_step (h : Counted state) (hfresh : FreshId state call) :
    TicketLaw state call (ticketStep state call) := by
  refine ⟨fun id found hfound hterminal ↦ ?_, ?_, (counted_step h hfresh).count⟩
  · rcases ticketStep_cases state call with hstep | ⟨params, clock, event, rfl, hissue, hstep⟩ |
      ⟨params, context, clock, ticket, rfl, htransfer⟩ | ⟨params, ticket, rfl, hredeem, hstep⟩
    · rwa [hstep]
    · rw [hstep]
      exact get_tickets_withIssued hfresh event hfound
    · rw [htransfer.tickets]
      exact get_set_of_terminal h.keyed htransfer.valid.ticket_eq htransfer.valid.transition hfound
        hterminal
    · rw [hstep]
      exact get_set_of_terminal h.keyed hredeem.ticket_eq hredeem.transition hfound hterminal
  · rintro params clock rfl id found hfound
    rcases ticketStep_cases state (.issue params clock) with
      hstep | ⟨params', clock', event, heq, -, hstep⟩ |
      ⟨params', context, clock', ticket, heq, -⟩ | ⟨params', ticket, heq, -, -⟩
    · rwa [hstep]
    · cases heq
      rw [hstep]
      exact get_tickets_withIssued hfresh event hfound
    · cases heq
    · cases heq

/-- **When no issuance reuses an id**, every call of a run from a state with events only leaves
finished tickets alone, replaces no ticket on issuance, and keeps the counters exact. -/
theorem meets_ticketLaw {state : DomainState} (h : EventsOnly state) {calls : List TicketCall}
    (hcalls : Meets ticketStep FreshId state calls) :
    Meets ticketStep (fun s call ↦ TicketLaw s call (ticketStep s call)) state calls :=
  meets_of_meets (fun _ _ hs hok ↦ counted_step hs hok) (fun _ _ hs hok ↦ ticketLaw_step hs hok)
    h.counted hcalls

/-- A ticket is issued and redeemed. -/
theorem meets_ticketLaw_issue_redeem :
    Meets ticketStep (fun s call ↦ TicketLaw s call (ticketStep s call)) galaState
      [issueT1, redeemT1] :=
  meets_ticketLaw eventsOnly_galaState ⟨rfl, trivial, trivial⟩

/-- Issuing `t1` once more brings the redeemed ticket back, and the event counts two tickets where
there is one. -/
theorem redeemed_ticket_reissued :
    (((run ticketStep galaState [issueT1, redeemT1]).tickets.get (js "t1")).map Ticket.status =
      some .redeemed) ∧
    (((run ticketStep galaState [issueT1, redeemT1, issueT1]).tickets.get (js "t1")).map
      Ticket.status = some .issued) ∧
    (((run ticketStep galaState [issueT1, redeemT1, issueT1]).events.get (js "gala")).map
      Event.issuedCount = some (.ofInt 2)) ∧
    (run ticketStep galaState [issueT1, redeemT1, issueT1]).actualTickets (js "gala") = 1 := by
  decide +kernel

end Utix.Tickets
