import Utix.Lib.Chain
import Utix.Tickets.Supply

/-!
# The chain of custody

The log of transfers tells how each ticket came to its owner: the transfers of a ticket, in order,
lead from the address it was issued to, hand to hand, to the present owner, and the ticket's nonce
counts them. Ids and nonces of transfers never repeat, and the parts of each transfer add up to its
price.

Three checks of `validateTicketTransfer` carry this: the sender is the owner (the chain), the nonce
is not processed and the id not in the log (no repetition), and the split sums to the price. What
makes it inductive is that a ticket's transfers only exist after the ticket does, so a new ticket
starts without any.
-/

namespace Utix.Tickets

open Js Lib List DomainState Dict

/-! ### Histories -/

/-- The transfers of one ticket, in order. -/
def DomainState.historyOf (state : DomainState) (ticketId : JsString) : List TransferRecord :=
  state.transfers.filter fun transfer ↦ transfer.ticketId = ticketId

/-- These transfers lead from one owner to another, each sent by the recipient of the one before. -/
def HandedOn (origin : JsString) (history : List TransferRecord) (owner : JsString) : Prop :=
  Chain.Holds TransferRecord.toAddress (fun holder transfer ↦ transfer.fromAddress = holder) origin
    history ∧
  Chain.last TransferRecord.toAddress origin history = owner

/-- A transfer by the owner carries the chain on to its recipient. -/
theorem HandedOn.concat {origin owner : JsString} {history : List TransferRecord}
    (h : HandedOn origin history owner) (transfer : TransferRecord)
    (hfrom : transfer.fromAddress = owner) :
    HandedOn origin (history ++ [transfer]) transfer.toAddress := by
  refine ⟨Chain.holds_concat.2 ⟨h.1, ?_⟩, Chain.last_concat _ _ _⟩
  rw [h.2]
  exact hfrom

/-- An issuance among these calls gave the ticket to this owner. -/
def IssuedTo (start : DomainState) (calls : List TicketCall) (ticketId owner : JsString) : Prop :=
  ∃ before params clock after event, calls = before ++ .issue params clock :: after ∧
    Issuable (run ticketStep start before) params event ∧ params.id = ticketId ∧
    params.ownerAddress = owner

variable {start : DomainState} {calls : List TicketCall}

theorem IssuedTo.concat {ticketId owner : JsString} (h : IssuedTo start calls ticketId owner)
    (call : TicketCall) : IssuedTo start (calls ++ [call]) ticketId owner := by
  obtain ⟨before, params, clock, after, event, rfl, hissue, hid, howner⟩ := h
  exact ⟨before, params, clock, after ++ [call], event, by simp, hissue, hid, howner⟩

/-- **The law of the log** after these calls. -/
structure CustodyLaw (start : DomainState) (calls : List TicketCall) (state : DomainState) :
    Prop where
  /-- Hand to hand from the original owner to the present one. -/
  chain : ∀ id ticket, state.tickets.get id = some ticket →
    ∃ origin, IssuedTo start calls id origin ∧
      HandedOn origin (state.historyOf id) ticket.ownerAddress
  /-- The nonce counts the transfers. -/
  version : ∀ id ticket, state.tickets.get id = some ticket →
    ticket.nonce = (state.historyOf id).length
  /-- No transfer id appears twice. -/
  ids : (state.transfers.map TransferRecord.id).Nodup
  /-- No transfer nonce appears twice. -/
  nonces : (state.transfers.map TransferRecord.nonce).Nodup
  /-- The parts add up to the price. -/
  splits : ∀ transfer ∈ state.transfers, transfer.splits = transfer.priceStroops

/-! ### The invariant -/

/-- The law, and what makes it inductive. -/
structure InCustody (start : DomainState) (calls : List TicketCall) (state : DomainState) :
    Prop where
  law : CustodyLaw start calls state
  keyed : ∀ id ticket, state.tickets.get id = some ticket → ticket.id = id
  /-- Every transfer is of a ticket that exists. -/
  existing : ∀ transfer ∈ state.transfers,
    ∃ ticket, state.tickets.get transfer.ticketId = some ticket
  /-- Every nonce in the log is processed. -/
  processed : ∀ transfer ∈ state.transfers, transfer.nonce ∈ state.processedNonces

theorem eq_of_equals {x y : JsNum} (h : x.equals y = true) : x = y := by
  simp only [JsNum.equals, Bool.and_eq_true, decide_eq_true_eq] at h
  exact h.2

variable {state : DomainState}

/-- A state without tickets and transfers has nothing to account for. -/
theorem inCustody_start (htickets : state.tickets = .empty) (htransfers : state.transfers = []) :
    InCustody state [] state := by
  have hget : ∀ {id ticket}, state.tickets.get id ≠ some ticket := by
    intro id ticket h
    rw [htickets] at h
    cases h
  refine ⟨⟨fun id ticket h ↦ absurd h hget, fun id ticket h ↦ absurd h hget, ?_, ?_, ?_⟩,
    fun id ticket h ↦ absurd h hget, ?_, ?_⟩ <;> simp [htransfers]

variable {next : DomainState}

/-- A call that changes neither owners, versions nor the log. -/
theorem InCustody.of_same (h : InCustody start calls state) (call : TicketCall)
    (htransfers : next.transfers = state.transfers)
    (hprocessed : next.processedNonces = state.processedNonces)
    (htickets : ∀ id ticket, next.tickets.get id = some ticket → ∃ old,
      state.tickets.get id = some old ∧ ticket.id = old.id ∧
        ticket.ownerAddress = old.ownerAddress ∧ ticket.nonce = old.nonce)
    (hkept : ∀ id old, state.tickets.get id = some old →
      ∃ ticket, next.tickets.get id = some ticket) : InCustody start (calls ++ [call]) next := by
  have hhistory : ∀ id, next.historyOf id = state.historyOf id := by
    intro id
    rw [historyOf, htransfers, historyOf]
  refine ⟨⟨?_, ?_, ?_, ?_, ?_⟩, ?_, ?_, ?_⟩
  · intro id ticket hget
    obtain ⟨old, hold, -, howner, -⟩ := htickets id ticket hget
    obtain ⟨origin, hissued, hchain⟩ := h.law.chain id old hold
    exact ⟨origin, hissued.concat call, by rw [hhistory, howner]; exact hchain⟩
  · intro id ticket hget
    obtain ⟨old, hold, -, -, hnonce⟩ := htickets id ticket hget
    rw [hhistory, hnonce]
    exact h.law.version id old hold
  · rw [htransfers]; exact h.law.ids
  · rw [htransfers]; exact h.law.nonces
  · rw [htransfers]; exact h.law.splits
  · intro id ticket hget
    obtain ⟨old, hold, hid, -, -⟩ := htickets id ticket hget
    rw [hid]
    exact h.keyed id old hold
  · intro transfer hmem
    rw [htransfers] at hmem
    obtain ⟨old, hold⟩ := h.existing transfer hmem
    exact hkept _ old hold
  · intro transfer hmem
    rw [htransfers] at hmem
    rw [hprocessed]
    exact h.processed transfer hmem

/-- A ticket under a new id starts a chain of its own. -/
theorem inCustody_issue (h : InCustody start calls (run ticketStep start calls))
    {params : IssueTicketParams} {clock : ℤ} {event : Event}
    (hissue : Issuable (run ticketStep start calls) params event)
    (hfresh : (run ticketStep start calls).tickets.get params.id = none) :
    InCustody start (calls ++ [.issue params clock])
      ((run ticketStep start calls).withIssued event (params.ticket clock)) := by
  generalize hstate : run ticketStep start calls = state at h hissue hfresh ⊢
  -- the new ticket has no transfers yet: every transfer is of a ticket that was there before
  have hnone : state.historyOf params.id = [] := by
    refine filter_eq_nil_iff.2 fun transfer hmem heq ↦ ?_
    obtain ⟨ticket, hticket⟩ := h.existing transfer hmem
    rw [of_decide_eq_true heq, hfresh] at hticket
    cases hticket
  refine ⟨⟨?_, ?_, h.law.ids, h.law.nonces, h.law.splits⟩, ?_, ?_, h.processed⟩
  · intro id ticket hticket
    obtain ⟨rfl, rfl⟩ | ⟨-, hticket⟩ := get_set_eq_some hticket
    · refine ⟨params.ownerAddress,
        ⟨calls, params, clock, [], event, rfl, hstate ▸ hissue, rfl, rfl⟩, ?_⟩
      show HandedOn params.ownerAddress (state.historyOf params.id) params.ownerAddress
      rw [hnone]
      exact ⟨Chain.holds_nil _, rfl⟩
    · obtain ⟨origin, hissued, hchain⟩ := h.law.chain id ticket hticket
      exact ⟨origin, hissued.concat _, hchain⟩
  · intro id ticket hticket
    obtain ⟨rfl, rfl⟩ | ⟨-, hticket⟩ := get_set_eq_some hticket
    · show 0 = (state.historyOf params.id).length
      rw [hnone]
      rfl
    · exact h.law.version id ticket hticket
  · exact forall_get_set h.keyed rfl
  · intro transfer hmem
    obtain ⟨ticket, hticket⟩ := h.existing transfer hmem
    exact ⟨ticket, get_tickets_withIssued hfresh event hticket⟩

/-- A transfer carries the chain of its ticket on, and no other. -/
theorem inCustody_transfer (h : InCustody start calls state) {params : TransferTicketParams}
    {ticket : Ticket} (htransfer : TransferredTo state next params ticket) (call : TicketCall) :
    InCustody start (calls ++ [call]) next := by
  obtain ⟨timestamp, hlog⟩ := htransfer.transfers
  have hvalid := htransfer.valid
  have hid : ticket.id = params.ticketId := h.keyed _ _ hvalid.ticket_eq
  have hget : ∀ id found, next.tickets.get id = some found →
      (id = params.ticketId ∧ found = ticket.handedTo params.toAddress) ∨
      (id ≠ params.ticketId ∧ state.tickets.get id = some found) := by
    intro id found hfound
    rw [htransfer.tickets] at hfound
    rw [← hid]
    exact get_set_eq_some hfound
  have hown : next.historyOf params.ticketId =
      state.historyOf params.ticketId ++ [params.record timestamp] := by
    rw [historyOf, hlog, filter_append, historyOf]
    simp [TransferTicketParams.record]
  have hother : ∀ id, id ≠ params.ticketId → next.historyOf id = state.historyOf id := by
    intro id hne
    rw [historyOf, hlog, filter_append, historyOf]
    simp [TransferTicketParams.record, Ne.symm hne]
  refine ⟨⟨?_, ?_, ?_, ?_, ?_⟩, ?_, ?_, ?_⟩
  · intro id found hfound
    rcases hget id found hfound with ⟨rfl, rfl⟩ | ⟨hne, hfound⟩
    · obtain ⟨origin, hissued, hchain⟩ := h.law.chain _ ticket hvalid.ticket_eq
      refine ⟨origin, hissued.concat call, ?_⟩
      rw [hown]
      exact hchain.concat (params.record timestamp) hvalid.owner.symm
    · obtain ⟨origin, hissued, hchain⟩ := h.law.chain id found hfound
      exact ⟨origin, hissued.concat call, by rw [hother id hne]; exact hchain⟩
  · intro id found hfound
    rcases hget id found hfound with ⟨rfl, rfl⟩ | ⟨hne, hfound⟩
    · rw [hown, length_append, length_singleton,
        ← h.law.version _ ticket hvalid.ticket_eq]
      rfl
    · rw [hother id hne]
      exact h.law.version id found hfound
  · rw [hlog, map_append]
    refine h.law.ids.append (nodup_singleton _) ?_
    rw [map_singleton, disjoint_singleton]
    intro hmem
    obtain ⟨transfer, htransfer, heq⟩ := mem_map.1 hmem
    exact hvalid.id transfer htransfer heq
  · rw [hlog, map_append]
    refine h.law.nonces.append (nodup_singleton _) ?_
    rw [map_singleton, disjoint_singleton]
    intro hmem
    obtain ⟨transfer, htransfer, heq⟩ := mem_map.1 hmem
    have hnonce : transfer.nonce = params.nonce := heq
    exact hvalid.nonce (hnonce ▸ h.processed transfer htransfer)
  · intro transfer hmem
    rw [hlog] at hmem
    rcases mem_append.1 hmem with hmem | hmem
    · exact h.law.splits transfer hmem
    · rw [mem_singleton.1 hmem]
      exact eq_of_equals hvalid.splits
  · intro id found hfound
    rcases hget id found hfound with ⟨rfl, rfl⟩ | ⟨-, hfound⟩
    · exact hid
    · exact h.keyed id found hfound
  · intro transfer hmem
    rw [htransfer.tickets, get_set]
    split
    · exact ⟨_, rfl⟩
    next hne =>
    rw [hlog] at hmem
    rcases mem_append.1 hmem with hmem | hmem
    · exact h.existing transfer hmem
    · rw [mem_singleton.1 hmem] at hne
      exact absurd hid hne
  · intro transfer hmem
    rw [hlog] at hmem
    rw [htransfer.processedNonces]
    rcases mem_append.1 hmem with hmem | hmem
    · exact Finset.mem_insert_of_mem (h.processed transfer hmem)
    · rw [mem_singleton.1 hmem]
      exact Finset.mem_insert_self _ _

/-- The step: whatever the call is, as long as an issuance takes a new id. -/
theorem inCustody_step {call : TicketCall} (h : InCustody start calls (run ticketStep start calls))
    (hfresh : FreshId (run ticketStep start calls) call) :
    InCustody start (calls ++ [call]) (ticketStep (run ticketStep start calls) call) := by
  rcases ticketStep_cases (run ticketStep start calls) call with hstep |
    ⟨params, clock, event, rfl, hissue, hstep⟩ | ⟨params, context, clock, ticket, rfl, htransfer⟩ |
    ⟨params, ticket, rfl, hredeem, hstep⟩
  · rw [hstep]
    exact h.of_same call rfl rfl (fun id ticket hget ↦ ⟨ticket, hget, rfl, rfl, rfl⟩)
      (fun id old hold ↦ ⟨old, hold⟩)
  · rw [hstep]
    exact inCustody_issue h hissue hfresh
  · exact inCustody_transfer h htransfer _
  · rw [hstep]
    have hid : ticket.id = params.ticketId := h.keyed _ _ hredeem.ticket_eq
    refine h.of_same (.redeem params) rfl rfl (fun id found hfound ↦ ?_) (fun id old hold ↦ ?_)
    · obtain ⟨rfl, rfl⟩ | ⟨-, hfound⟩ := get_set_eq_some hfound
      · exact ⟨ticket, by rw [hid]; exact hredeem.ticket_eq, rfl, rfl, rfl⟩
      · exact ⟨found, hfound, rfl, rfl, rfl⟩
    · rw [withRedeemed, get_set]
      split
      · exact ⟨_, rfl⟩
      · exact ⟨old, hold⟩

/-- **Every ticket's transfers lead from its original owner to its present one**, in every run from
a state without tickets and transfers in which no issuance reuses an id. -/
theorem custodyLaw_run {start : DomainState} (htickets : start.tickets = .empty)
    (htransfers : start.transfers = []) {calls : List TicketCall}
    (hcalls : Meets ticketStep FreshId start calls) :
    CustodyLaw start calls (run ticketStep start calls) :=
  (history_induction (fun _ _ h hfresh ↦ inCustody_step h hfresh)
    (inCustody_start htickets htransfers) hcalls).law

/-- `ALICE` is issued a ticket and hands it to `BOB`. -/
theorem custodyLaw_aliceToBob :
    CustodyLaw galaState [issueT1, .transfer aliceToBob {} 1000]
      (run ticketStep galaState [issueT1, .transfer aliceToBob {} 1000]) ∧
    ((run ticketStep galaState [issueT1, .transfer aliceToBob {} 1000]).tickets.get
      (js "t1")).map Ticket.ownerAddress = some (js "BOB") :=
  ⟨custodyLaw_run rfl rfl ⟨rfl, trivial, trivial⟩, by decide +kernel⟩

end Utix.Tickets
