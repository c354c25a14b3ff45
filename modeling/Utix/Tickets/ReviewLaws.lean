import Utix.Tickets.Review

/-!
# The laws of transfer review

Two laws of runs of `requestTicketTransfer`, `reviewTicketTransfer` and `redeemTicket`.

**No bypass** (`review_not_bypassed`). A ticket changes owner only if no attempt recorded for it at
its present version is blocked or rejected; and once an attempt at that version was ever put up for
review, only through a request that equals an approved attempt in every field that carries value.
What carries it is that a decision is reserved for an ownership version: an attempt that was once
waiting is never removed from the log while the ticket keeps its version (`markedOrPassed_step`),
whatever id, nonce, recipient or price a new request has.

**Separation of duties** (`review_duties`). The log of attempts and the audit tell the same story,
and every approval was given by a maintainer or by the organizer of the ticket's event, who was
neither sender nor recipient.
-/

namespace Utix.Tickets

open Js Lib List DomainState Dict

/-! ### What a record does to the log -/

/-- The change that a record makes to the other attempts. -/
def supersede (request : TransferTicketParams) (version : ℕ) (status : TransferRiskStatus)
    (item : TransferRiskAttempt) : TransferRiskAttempt :=
  if isSuperseded request version status item then { item with status := .blocked } else item

/-- The audit entry of an attempt that a completed transfer overtakes. -/
def supersededEntry (timestamp : JsNum) (item : TransferRiskAttempt) : TransferRiskAudit :=
  ⟨item.id, .system, js "transfer-risk", js "ownership_changed", timestamp, .blocked⟩

/-- The log after the record of a request. -/
structure RecordedAs (state next : DomainState) (request : TransferTicketParams) (version : ℕ)
    (status : TransferRiskStatus) : Prop where
  attempts : ∃ attempt : TransferRiskAttempt,
    next.attempts = (state.attempts.filter fun item ↦ item.id ≠ request.id).map
      (supersede request version status) ++ [attempt] ∧
    attempt.id = request.id ∧
    attempt.request = { request with timestamp := attempt.request.timestamp } ∧
    attempt.ticketVersion = version ∧ attempt.status = status
  audit : ∃ timestamp reason,
    next.audit = state.audit ++ (state.attempts.filter (isSuperseded request version status)).map
      (supersededEntry timestamp) ++
      [⟨request.id, .user, request.fromAddress, reason, timestamp, status⟩]

variable {state : DomainState}

section

variable (request : TransferTicketParams) (version : ℕ) (status : TransferRiskStatus)

/-- A record on a state with the same log. -/
theorem recordedAs_record {before : DomainState} (hrisk : before.transferRisk = state.transferRisk)
    (assessment : TransferRiskAssessment) (context : TransferRiskContext) (clock : ℤ) :
    RecordedAs state (recordTransferAttempt before request version status assessment context clock)
      request version status := by
  have hattempts : before.attempts = state.attempts := by
    rw [attempts, hrisk, attempts]
  have haudit : before.audit = state.audit := by
    rw [audit, hrisk, audit]
  constructor
  · rw [← hattempts]
    exact ⟨_, rfl, rfl, rfl, rfl, rfl⟩
  · rw [← hattempts, ← haudit]
    exact ⟨_, _, rfl⟩

section

variable (item : TransferRiskAttempt)

@[simp] theorem supersede_id : (supersede request version status item).id = item.id := by
  rw [supersede]
  split <;> rfl

@[simp] theorem supersede_request :
    (supersede request version status item).request = item.request := by
  rw [supersede]
  split <;> rfl

@[simp] theorem supersede_ticketVersion :
    (supersede request version status item).ticketVersion = item.ticketVersion := by
  rw [supersede]
  split <;> rfl

end

end

variable {next : DomainState} {request : TransferTicketParams} {version : ℕ}
  {status : TransferRiskStatus} {item : TransferRiskAttempt}

section

variable (h : RecordedAs state next request version status)
include h

/-- An attempt after a record: the new one, or an old one, possibly overtaken. -/
theorem RecordedAs.mem (hitem : item ∈ next.attempts) :
    (item.id = request.id ∧ item.request = { request with timestamp := item.request.timestamp } ∧
      item.ticketVersion = version ∧ item.status = status) ∨
    ∃ old ∈ state.attempts, old.id ≠ request.id ∧ item = supersede request version status old := by
  obtain ⟨attempt, hattempts, hattempt⟩ := h.attempts
  rw [hattempts] at hitem
  rcases mem_append.1 hitem with hitem | hitem
  · obtain ⟨old, hold, rfl⟩ := mem_map.1 hitem
    obtain ⟨hmem, hne⟩ := mem_filter.1 hold
    exact .inr ⟨old, hmem, of_decide_eq_true hne, rfl⟩
  · rw [mem_singleton.1 hitem]
    exact .inl hattempt

/-- An old attempt of another id is still there after a record, possibly overtaken. -/
theorem RecordedAs.mem_of_mem (hitem : item ∈ state.attempts) (hne : item.id ≠ request.id) :
    supersede request version status item ∈ next.attempts := by
  obtain ⟨attempt, hattempts, -⟩ := h.attempts
  rw [hattempts]
  refine mem_append_left _ (mem_map_of_mem (mem_filter.2 ⟨hitem, ?_⟩))
  exact decide_eq_true hne

/-- Recording an attempt replaces the one with its id, so ids stay distinct. -/
theorem nodup_ids_recorded (hdistinct : (state.attempts.map TransferRiskAttempt.id).Nodup) :
    (next.attempts.map TransferRiskAttempt.id).Nodup := by
  obtain ⟨attempt, hattempts, hid, -⟩ := h.attempts
  have hids : ((state.attempts.filter fun item ↦ item.id ≠ request.id).map
      (supersede request version status)).map TransferRiskAttempt.id =
      (state.attempts.filter fun item ↦ item.id ≠ request.id).map TransferRiskAttempt.id := by
    rw [map_map]
    exact map_congr_left fun item _ ↦ supersede_id _ _ _ item
  rw [hattempts, map_append, hids]
  refine (hdistinct.sublist (filter_sublist.map _)).append (nodup_singleton _) ?_
  rw [map_singleton, disjoint_singleton, hid]
  intro hmem
  obtain ⟨item, hitem, heq⟩ := mem_map.1 hmem
  exact of_decide_eq_true (mem_filter.1 hitem).2 heq

end

/-! ### A log that is in order -/

/-- Tickets lie under their ids, attempts have distinct ids, and an attempt has the id of its
request. -/
structure Filed (state : DomainState) : Prop where
  tickets : ∀ id ticket, state.tickets.get id = some ticket → ticket.id = id
  distinct : (state.attempts.map TransferRiskAttempt.id).Nodup
  named : ∀ attempt ∈ state.attempts, attempt.id = attempt.request.id

theorem eq_of_id_eq {attempts : List TransferRiskAttempt}
    (h : (attempts.map TransferRiskAttempt.id).Nodup) {a b : TransferRiskAttempt}
    (ha : a ∈ attempts) (hb : b ∈ attempts) (hid : a.id = b.id) : a = b :=
  inj_on_of_nodup_map h ha hb hid

/-- **A request that goes on replaces at most the approved attempt it repeats.** -/
theorem Filed.of_admissible (h : Filed state) (hadmissible : Admissible state request)
    (hitem : item ∈ state.attempts) (hid : item.id = request.id) :
    sameTransfer item.request request = true ∧ item.status = .approved ∧
      (state.tickets.get request.ticketId).map Ticket.nonce = some item.ticketVersion := by
  obtain ⟨existing, hexisting⟩ : ∃ existing, existingAttempt state request = some existing := by
    refine Option.isSome_iff_exists.1 (find?_isSome.2 ⟨item, hitem, ?_⟩)
    simp [hid]
  obtain ⟨hsame, hstatus, hversion⟩ := hadmissible existing hexisting
  have hmem : existing ∈ state.attempts := mem_of_find?_eq_some hexisting
  have hexistingId : existing.id = request.id := by
    rw [h.named existing hmem]
    simp only [sameTransfer, Bool.and_eq_true, decide_eq_true_eq] at hsame
    exact hsame.1.1.1.1.1.1.1.1
  obtain rfl : item = existing := eq_of_id_eq h.distinct hitem hmem (hid.trans hexistingId.symm)
  exact ⟨hsame, hstatus, hversion⟩

variable {context : TransferRiskContext}

/-- What a transfer does in the workflow. -/
theorem transferred_parts {clock : ℤ} (h : transferTicket state request context clock = .ok next) :
    ∃ ticket, Transferable state request ticket ∧
      (assessTransferRisk state request (context.at clock) clock).disposition = .allow ∧
      RecordedAs state next request ticket.nonce .completed ∧
      next.tickets = state.tickets.set ticket.id (ticket.handedTo request.toAddress) ∧
      next.events = state.events := by
  obtain ⟨ticket, hvalid, hallow, rfl⟩ := transferTicket_eq_ok.1 h
  exact ⟨ticket, hvalid, hallow, recordedAs_record _ _ _ (by rfl) _ _ _, rfl, rfl⟩

theorem named_recorded (h : RecordedAs state next request version status)
    (hnamed : ∀ attempt ∈ state.attempts, attempt.id = attempt.request.id) :
    ∀ attempt ∈ next.attempts, attempt.id = attempt.request.id := by
  intro item hitem
  rcases h.mem hitem with ⟨hid, hrequest, -, -⟩ | ⟨old, hold, -, rfl⟩
  · rw [hrequest]
    exact hid
  · simpa using hnamed old hold

theorem attempts_withDecision (state : DomainState) (transferId : JsString)
    (decision : ReviewDecision) (actor : TransferReviewer) (reason : JsString) (now : JsNum) :
    (state.withDecision transferId decision actor reason now).attempts =
      state.attempts.map fun item ↦
        if item.id = transferId then { item with status := decision.status } else item := rfl

theorem ids_withDecision (state : DomainState) (transferId : JsString) (decision : ReviewDecision)
    (actor : TransferReviewer) (reason : JsString) (now : JsNum) :
    (state.withDecision transferId decision actor reason now).attempts.map TransferRiskAttempt.id =
      state.attempts.map TransferRiskAttempt.id := by
  rw [attempts_withDecision, map_map]
  refine map_congr_left fun item _ ↦ ?_
  simp only [Function.comp]
  split <;> rfl

/-- **Every call keeps the log in order.** -/
theorem filed_step (h : Filed state) (call : ReviewCall) : Filed (reviewStep state call) := by
  have heffect := reviewStep_effect state call
  generalize reviewStep state call = next at heffect ⊢
  cases heffect with
  | idle => exact h
  | recorded hadmissible hrecorded =>
    obtain ⟨-, rfl⟩ := hrecorded
    have hrecord := fun request version status assessment context clock ↦
      recordedAs_record request version status (rfl : state.transferRisk = _) assessment context
        clock
    exact ⟨h.tickets, nodup_ids_recorded (hrecord _ _ _ _ _ _) h.distinct,
      named_recorded (hrecord _ _ _ _ _ _) h.named⟩
  | transferred hadmissible htransfer =>
    obtain ⟨ticket, -, -, hrecord, htickets, -⟩ := transferred_parts htransfer
    refine ⟨?_, nodup_ids_recorded hrecord h.distinct, named_recorded hrecord h.named⟩
    rw [htickets]
    exact get_set_of_keyed h.tickets (ticket.handedTo _)
  | decided hreview =>
    refine ⟨h.tickets, (ids_withDecision ..).symm ▸ h.distinct, fun item hitem ↦ ?_⟩
    rw [attempts_withDecision] at hitem
    obtain ⟨old, hold, rfl⟩ := mem_map.1 hitem
    have hnamed := h.named old hold
    split <;> exact hnamed
  | @redeemed params ticket hredeem =>
    exact ⟨get_set_of_keyed h.tickets { ticket with status := .redeemed }, h.distinct, h.named⟩

/-! ### No bypass -/

variable {ticket : Ticket}

/-- What an allowed request finds among the active attempts. -/
theorem allowed_of_assess {clock : ℤ} (hticket : state.tickets.get request.ticketId = some ticket)
    (h : (assessTransferRisk state request context clock).disposition = .allow) :
    (∀ attempt ∈ activeAttempts state ticket,
      attempt.status ≠ .rejected ∧ attempt.status ≠ .blocked) ∧
    ((∃ attempt ∈ activeAttempts state ticket,
        attempt.status = .approved ∧ sameTransfer attempt.request request = true) ∨
      ∀ attempt ∈ activeAttempts state ticket,
        attempt.status ≠ .reviewRequired ∧ attempt.status ≠ .approved) := by
  rw [assessTransferRisk, hticket] at h
  split_ifs at h with hcontext
  simp only at h
  split_ifs at h with hexisting
  simp only [decideTransfer] at h
  split_ifs at h with hrejected hblocked happroved hreview
  · simp only [any_eq_true, decide_eq_true_eq, not_exists, not_and, Bool.or_eq_true, not_or,
      Bool.and_eq_true] at hrejected hblocked happroved
    exact ⟨fun a ha ↦ ⟨hrejected a ha, hblocked.1 a ha⟩, .inl happroved⟩
  · simp only [any_eq_true, decide_eq_true_eq, not_exists, not_and, Bool.or_eq_true,
      not_or] at hrejected hblocked hreview
    exact ⟨fun a ha ↦ ⟨hrejected a ha, hblocked.1 a ha⟩, .inr hreview.1⟩

/-- Some attempt for the ticket at this version is in the log, and has not been completed. -/
def Marked (state : DomainState) (ticketId : JsString) (version : ℕ) : Prop :=
  ∃ attempt ∈ state.attempts, attempt.request.ticketId = ticketId ∧
    attempt.ticketVersion = version ∧ attempt.status ≠ .completed

/-- The ticket has left this version behind. -/
def Passed (state : DomainState) (ticketId : JsString) (version : ℕ) : Prop :=
  ∃ ticket, state.tickets.get ticketId = some ticket ∧ version < ticket.nonce

variable {ticketId : JsString}

/-- A record keeps a mark, unless it completes the transfer of that very version. -/
theorem marked_recorded (h : Filed state) (hadmissible : Admissible state request)
    (hticket : state.tickets.get request.ticketId = some ticket)
    (hrecord : RecordedAs state next request ticket.nonce status)
    (hmarked : Marked state ticketId version) :
    Marked next ticketId version ∨
      (status = .completed ∧ request.ticketId = ticketId ∧ ticket.nonce = version) := by
  obtain ⟨item, hitem, hid, hversion, hstatus⟩ := hmarked
  by_cases hsameId : item.id = request.id
  · -- the attempt is the approved one that the request repeats, so the record replaces it by one
    -- for the same ticket at the same version
    obtain ⟨hsame, -, hnonce⟩ := h.of_admissible hadmissible hitem hsameId
    rw [hticket, Option.map_some, hversion] at hnonce
    have hnonce : ticket.nonce = version := Option.some.inj hnonce
    have hrequest : request.ticketId = ticketId := by
      simp only [sameTransfer, Bool.and_eq_true, decide_eq_true_eq] at hsame
      rw [← hid]
      exact hsame.1.1.1.1.1.1.1.2.symm
    by_cases hcompleted : status = .completed
    · exact .inr ⟨hcompleted, hrequest, hnonce⟩
    obtain ⟨attempt, hattempts, -, hreq, hver, hst⟩ := hrecord.attempts
    refine .inl ⟨attempt, by rw [hattempts]; simp, ?_, hver.trans hnonce, hst ▸ hcompleted⟩
    rw [hreq]
    exact hrequest
  · refine .inl ⟨_, hrecord.mem_of_mem hitem hsameId, by simpa using hid, by simpa using hversion,
      ?_⟩
    rw [supersede]
    split
    · simp
    · exact hstatus

/-- A ticket that is written back with the same nonce or a higher one has not gone back behind a
version. -/
theorem passed_set (hkeyed : ∀ id ticket, state.tickets.get id = some ticket → ticket.id = id)
    {key : JsString} (hticket : state.tickets.get key = some ticket) (changed : Ticket)
    (hnext : next.tickets = state.tickets.set ticket.id changed)
    (hnonce : ticket.nonce ≤ changed.nonce) (h : Passed state ticketId version) :
    Passed next ticketId version := by
  obtain ⟨found, hfound, hlt⟩ := h
  rw [Passed, hnext]
  simp only [get_set]
  split
  · next heq =>
    obtain rfl := heq.symm.trans (hkeyed key ticket hticket)
    obtain rfl : found = ticket := Option.mem_unique hfound hticket
    exact ⟨changed, rfl, by omega⟩
  · exact ⟨found, hfound, hlt⟩

/-- **An attempt that once waited stays in the way until the ticket moves on.** -/
theorem markedOrPassed_step (h : Filed state)
    (hmarked : Marked state ticketId version ∨ Passed state ticketId version) (call : ReviewCall) :
    Marked (reviewStep state call) ticketId version ∨
      Passed (reviewStep state call) ticketId version := by
  have heffect := reviewStep_effect state call
  generalize reviewStep state call = next at heffect ⊢
  cases heffect with
  | idle => exact hmarked
  | recorded hadmissible hrecorded =>
    obtain ⟨hvalid, rfl⟩ := hrecorded
    refine hmarked.imp (fun hmarked ↦ ?_) id
    refine (marked_recorded h hadmissible hvalid.ticket_eq
      (recordedAs_record _ _ _ rfl _ _ _) hmarked).resolve_right ?_
    exact fun hcompleted ↦ (status_ne _).1 hcompleted.1
  | @transferred request context clocks _ hadmissible htransfer =>
    obtain ⟨ticket, hvalid, -, hrecord, htickets, -⟩ := transferred_parts htransfer
    have hkey := h.tickets _ _ hvalid.ticket_eq
    rcases hmarked with hmarked | hpassed
    · rcases marked_recorded h hadmissible hvalid.ticket_eq hrecord hmarked with
        hmarked | ⟨-, rfl, rfl⟩
      · exact .inl hmarked
      · refine .inr ⟨ticket.handedTo request.toAddress, ?_, Nat.lt_succ_self _⟩
        rw [htickets, get_set, if_pos hkey]
    · exact .inr (passed_set h.tickets hvalid.ticket_eq _ htickets (Nat.le_succ _) hpassed)
  | @decided transferId decision actor reason now attempt hreview =>
    refine hmarked.imp (fun ⟨item, hitem, hid, hversion, hstatus⟩ ↦ ?_) id
    refine ⟨_, by rw [attempts_withDecision]; exact mem_map_of_mem hitem, ?_⟩
    split
    · exact ⟨hid, hversion, by cases decision <;> nofun⟩
    · exact ⟨hid, hversion, hstatus⟩
  | @redeemed params ticket hredeem =>
    exact hmarked.imp id fun hpassed ↦
      passed_set h.tickets hredeem.ticket_eq { ticket with status := .redeemed } rfl (Nat.le_refl _)
        hpassed

/-- **Only an allowed transfer of the ticket changes its owner.** -/
theorem transfer_of_owner_ne (h : Filed state) {call : ReviewCall} {id : JsString}
    {ticket' : Ticket} (hbefore : state.tickets.get id = some ticket)
    (hafter : (reviewStep state call).tickets.get id = some ticket')
    (hne : ticket'.ownerAddress ≠ ticket.ownerAddress) :
    ∃ request context clocks, call = .request request context clocks ∧ request.ticketId = id ∧
      (assessTransferRisk state request (context.at clocks.transfer) clocks.transfer).disposition =
        .allow := by
  have heffect := reviewStep_effect state call
  generalize reviewStep state call = next at heffect hafter
  have hunchanged : state.tickets.get id ≠ some ticket' := by
    intro heq
    rw [hbefore] at heq
    exact hne (by rw [Option.some.inj heq])
  cases heffect with
  | idle => exact absurd hafter hunchanged
  | recorded hadmissible hrecorded =>
    obtain ⟨-, rfl⟩ := hrecorded
    exact absurd hafter hunchanged
  | @transferred request context clocks _ hadmissible htransfer =>
    obtain ⟨found, hvalid, hallow, -, htickets, -⟩ := transferred_parts htransfer
    refine ⟨request, context, clocks, rfl, ?_, hallow⟩
    rw [htickets] at hafter
    obtain ⟨heq, -⟩ | ⟨-, hafter⟩ := get_set_eq_some hafter
    · rw [← h.tickets _ _ hvalid.ticket_eq, heq]
    · exact absurd hafter hunchanged
  | decided hreview => exact absurd hafter hunchanged
  | @redeemed params found hredeem =>
    obtain ⟨heq, rfl⟩ | ⟨-, hafter⟩ := get_set_eq_some hafter
    · obtain rfl := heq.trans (h.tickets _ _ hredeem.ticket_eq)
      obtain rfl : ticket = found := Option.mem_unique hbefore hredeem.ticket_eq
      exact absurd rfl hne
    · exact absurd hafter hunchanged

/-- **Transfer review cannot be bypassed.** Whenever a call of a run changes the owner of a ticket,
no attempt recorded for the ticket at its version is blocked or rejected; and if at any earlier
point of the run an attempt at that version was waiting for review, the call is a request that
equals an approved attempt in every field. -/
theorem review_not_bypassed {start : DomainState} (hstart : Filed start)
    (before : List ReviewCall) (call : ReviewCall) {id : JsString} {ticket ticket' : Ticket}
    (hbefore : (run reviewStep start before).tickets.get id = some ticket)
    (hafter : (reviewStep (run reviewStep start before) call).tickets.get id = some ticket')
    (hne : ticket'.ownerAddress ≠ ticket.ownerAddress) :
    (∀ attempt ∈ (run reviewStep start before).attempts, attempt.request.ticketId = id →
      attempt.ticketVersion = ticket.nonce →
      attempt.status ≠ .blocked ∧ attempt.status ≠ .rejected) ∧
    ((∃ earlier later, before = earlier ++ later ∧
        ∃ attempt ∈ (run reviewStep start earlier).attempts, attempt.request.ticketId = id ∧
          attempt.ticketVersion = ticket.nonce ∧ attempt.status = .reviewRequired) →
      ∃ request context clocks, call = .request request context clocks ∧
        ∃ attempt ∈ (run reviewStep start before).attempts, attempt.status = .approved ∧
          attempt.ticketVersion = ticket.nonce ∧ sameTransfer attempt.request request = true) := by
  have hfiled : ∀ calls, Filed (run reviewStep start calls) :=
    run_invariant Filed (fun _ c h ↦ filed_step h c) hstart
  obtain ⟨request, context, clocks, rfl, rfl, hallow⟩ :=
    transfer_of_owner_ne (hfiled before) hbefore hafter hne
  have hkey := (hfiled before).tickets _ _ hbefore
  obtain ⟨hclear, hreviewed⟩ := allowed_of_assess hbefore hallow
  have hactive : ∀ attempt ∈ (run reviewStep start before).attempts,
      attempt.request.ticketId = request.ticketId → attempt.ticketVersion = ticket.nonce →
      attempt ∈ activeAttempts (run reviewStep start before) ticket := by
    intro attempt hmem hid hversion
    refine mem_filter.2 ⟨hmem, ?_⟩
    simp [hid, hversion, hkey]
  refine ⟨fun attempt hmem hid hversion ↦ (hclear attempt (hactive attempt hmem hid hversion)).symm,
    ?_⟩
  rintro ⟨earlier, later, rfl, waiting, hwaiting, hid, hversion, hstatus⟩
  refine ⟨request, context, clocks, rfl, ?_⟩
  -- the attempt that waited is still in the way: it was not passed, as the ticket is at its version
  have hmarked :
      Marked (run reviewStep start (earlier ++ later)) request.ticketId ticket.nonce := by
    have hboth : Filed (run reviewStep start (earlier ++ later)) ∧
        (Marked (run reviewStep start (earlier ++ later)) request.ticketId ticket.nonce ∨
          Passed (run reviewStep start (earlier ++ later)) request.ticketId ticket.nonce) := by
      rw [run_append]
      refine run_invariant (fun s ↦ Filed s ∧
        (Marked s request.ticketId ticket.nonce ∨ Passed s request.ticketId ticket.nonce))
        (fun s c h ↦ ⟨filed_step h.1 c, markedOrPassed_step h.1 h.2 c⟩)
        ⟨hfiled earlier, .inl ?_⟩ later
      exact ⟨waiting, hwaiting, hid, hversion, by rw [hstatus]; nofun⟩
    refine hboth.2.resolve_right fun ⟨found, hfound, hlt⟩ ↦ ?_
    obtain rfl : ticket = found := Option.mem_unique hbefore hfound
    exact lt_irrefl _ hlt
  obtain ⟨mark, hmem, hmarkId, hmarkVersion, hmarkStatus⟩ := hmarked
  have hmarkActive := hactive mark hmem hmarkId hmarkVersion
  rcases hreviewed with ⟨attempt, hattempt, happroved, hsame⟩ | hnone
  · obtain ⟨hmem, hmatch⟩ := mem_filter.1 hattempt
    simp only [Bool.and_eq_true, decide_eq_true_eq] at hmatch
    exact ⟨attempt, hmem, happroved, hmatch.2, hsame⟩
  · -- otherwise every active attempt is completed, and the mark is not
    exfalso
    obtain ⟨hrejected, hblocked⟩ := hclear mark hmarkActive
    obtain ⟨hreview, happroved⟩ := hnone mark hmarkActive
    cases hcase : mark.status <;> simp_all

/-! ### A resale that is reviewed -/

/-- The ticket `t1`, which `BOB` has just bought from `ALICE`. -/
def bobsTicket : Ticket := ((ticketFor "t1" "ALICE").ticket 0).handedTo (js "BOB")

/-- The state after that purchase. -/
def resaleState : DomainState :=
  { galaState with
    tickets := Dict.empty.set (js "t1") bobsTicket
    transfers := [aliceToBob.record (.ofInt 1000)]
    processedNonces := {js "n1"} }

/-- The transfer of `t1` from `BOB` to `CAROL`. -/
def bobToCarol : TransferTicketParams where
  id := js "x2"
  ticketId := js "t1"
  fromAddress := js "BOB"
  toAddress := js "CAROL"
  priceStroops := .ofInt 100
  organizerFeeStroops := .ofInt 5
  protocolFeeStroops := .ofInt 1
  sellerProceedsStroops := .ofInt 94
  nonce := js "n2"

/-- `BOB` requests the resale at this time. -/
def resell (now : ℤ) : ReviewCall := .request bobToCarol {} ⟨now, now, now⟩

/-- The organizer approves it. -/
def approveResale : ReviewCall :=
  .review (js "x2") .approve ⟨.organizer, js "ORGANIZER"⟩ (js "known.buyer") (.ofInt 3000)

theorem filed_resaleState : Filed resaleState := by
  have hnone : resaleState.attempts = [] := rfl
  refine ⟨fun id ticket h ↦ ?_, by simp [hnone], by simp [hnone]⟩
  obtain ⟨rfl, rfl⟩ | ⟨-, h⟩ := get_set_eq_some h
  · rfl
  · cases h

/-- The resale waits for review, is approved, and goes through on the second request. -/
theorem review_not_bypassed_resale :
    ∃ attempt ∈ (run reviewStep resaleState [resell 2000, approveResale]).attempts,
      attempt.status = .approved ∧ attempt.ticketVersion = bobsTicket.nonce ∧
        sameTransfer attempt.request bobToCarol = true := by
  have hbefore : (run reviewStep resaleState [resell 2000, approveResale]).tickets.get (js "t1") =
      some bobsTicket := by decide +kernel
  have hafter : (reviewStep (run reviewStep resaleState [resell 2000, approveResale])
      (resell 4000)).tickets.get (js "t1") = some (bobsTicket.handedTo (js "CAROL")) := by
    decide +kernel
  have hwaiting : ∃ attempt ∈ (run reviewStep resaleState [resell 2000]).attempts,
      attempt.request.ticketId = js "t1" ∧ attempt.ticketVersion = bobsTicket.nonce ∧
        attempt.status = .reviewRequired := by decide +kernel
  obtain ⟨-, hreviewed⟩ := review_not_bypassed filed_resaleState
    [resell 2000, approveResale] (resell 4000) hbefore hafter (by decide +kernel)
  obtain ⟨request, context, clocks, hcall, h⟩ :=
    hreviewed ⟨[resell 2000], [approveResale], rfl, hwaiting⟩
  obtain ⟨rfl, -, -⟩ := ReviewCall.request.inj hcall
  exact h

/-! ### Separation of duties -/

/-- The audit of one attempt. -/
def DomainState.auditOf (state : DomainState) (transferId : JsString) : List TransferRiskAudit :=
  state.audit.filter fun entry ↦ entry.transferId = transferId

/-- The status in the last entry about an attempt. -/
def lastStatus (audit : List TransferRiskAudit) (transferId : JsString) :
    Option TransferRiskStatus :=
  ((audit.filter fun entry ↦ entry.transferId = transferId).getLast?).map TransferRiskAudit.status

/-- The actor may approve this attempt in this state. -/
def MayApprove (state : DomainState) (attempt : TransferRiskAttempt) (actor : TransferReviewer) :
    Prop :=
  (actor.kind = .maintainer ∨ (actor.kind = .organizer ∧
    ∃ event, eventOfTicket state attempt.request.ticketId = some event ∧
      actor.id = event.organizerAddress)) ∧
  actor.id ≠ attempt.request.fromAddress ∧ actor.id ≠ attempt.request.toAddress

/-- A call of the run approved this attempt, by an actor who could, and the audit says so. -/
def ApprovedBy (start : DomainState) (calls : List ReviewCall) (state : DomainState)
    (attempt : TransferRiskAttempt) : Prop :=
  ∃ earlier later actor reason now,
    calls = earlier ++ .review attempt.id .approve actor reason now :: later ∧
    MayApprove (run reviewStep start earlier) attempt actor ∧
    (⟨attempt.id, actor.kind.audited, actor.id, reason, now, .approved⟩ : TransferRiskAudit) ∈
      state.audit

/-- **The duties of review** after these calls. -/
structure ReviewDuties (start : DomainState) (calls : List ReviewCall) (state : DomainState) :
    Prop where
  /-- No two attempts share an id. -/
  distinct : (state.attempts.map TransferRiskAttempt.id).Nodup
  /-- The last audit entry of an attempt carries its status. -/
  last : ∀ attempt ∈ state.attempts, lastStatus state.audit attempt.id = some attempt.status
  /-- Every approval was given by somebody who could. -/
  approved : ∀ attempt ∈ state.attempts, attempt.status = .approved →
    ApprovedBy start calls state attempt

/-- The last entry about an attempt decides. -/
theorem lastStatus_append (first second : List TransferRiskAudit) (id : JsString) :
    lastStatus (first ++ second) id = (lastStatus second id).or (lastStatus first id) := by
  rw [lastStatus, filter_append, getLast?_append, lastStatus, lastStatus]
  cases (second.filter fun entry ↦ entry.transferId = id).getLast? <;> rfl

theorem lastStatus_singleton (entry : TransferRiskAudit) (id : JsString) :
    lastStatus [entry] id = if entry.transferId = id then some entry.status else none := by
  rw [lastStatus, filter_singleton]
  split <;> simp_all

/-- The entries of overtaken attempts all say `blocked`. -/
theorem lastStatus_superseded (timestamp : JsNum) (items : List TransferRiskAttempt)
    (id : JsString) :
    lastStatus (items.map (supersededEntry timestamp)) id =
      if ∃ item ∈ items, item.id = id then some .blocked else none := by
  induction items using reverseRecOn with
  | nil => simp [lastStatus]
  | append_singleton items item ih =>
    rw [map_append, lastStatus_append, ih, map_singleton, lastStatus_singleton]
    by_cases hid : item.id = id
    · rw [if_pos (show (supersededEntry timestamp item).transferId = id from hid), Option.some_or,
        if_pos ⟨item, by simp, hid⟩]
      rfl
    · rw [if_neg (show ¬ (supersededEntry timestamp item).transferId = id from hid), Option.none_or]
      simp [hid]

variable {start : DomainState} {calls : List ReviewCall} {attempt : TransferRiskAttempt}

theorem ApprovedBy.concat (h : ApprovedBy start calls state attempt) (call : ReviewCall)
    (haudit : state.audit <+: next.audit) : ApprovedBy start (calls ++ [call]) next attempt := by
  obtain ⟨earlier, later, actor, reason, now, rfl, hmay, hentry⟩ := h
  exact ⟨earlier, later ++ [call], actor, reason, now, by simp, hmay, haudit.subset hentry⟩

/-- Recording only adds to the audit. -/
theorem RecordedAs.audit_grows (h : RecordedAs state next request version status) :
    state.audit <+: next.audit := by
  obtain ⟨timestamp, reason, haudit⟩ := h.audit
  rw [haudit, append_assoc]
  exact prefix_append _ _

/-- A record that is no approval keeps the duties. -/
theorem reviewDuties_recorded (h : ReviewDuties start calls state)
    (hrecord : RecordedAs state next request version status) (hstatus : status ≠ .approved)
    (call : ReviewCall) : ReviewDuties start (calls ++ [call]) next := by
  obtain ⟨timestamp, reason, haudit⟩ := hrecord.audit
  refine ⟨nodup_ids_recorded hrecord h.distinct, fun item hitem ↦ ?_, fun item hitem happroved ↦ ?_⟩
  · rw [haudit, lastStatus_append, lastStatus_append, lastStatus_singleton, lastStatus_superseded]
    rcases hrecord.mem hitem with ⟨hid, -, -, hst⟩ | ⟨old, hold, hne, rfl⟩
    · rw [if_pos hid.symm, Option.some_or, hst]
    rw [supersede_id, if_neg (Ne.symm hne), Option.none_or, supersede]
    split_ifs with hexists hsuperseded hsuperseded
    · rfl
    · -- another attempt of this id would have been overtaken
      obtain ⟨other, hother, hid⟩ := hexists
      obtain ⟨hmem, hother⟩ := mem_filter.1 hother
      rw [eq_of_id_eq h.distinct hmem hold hid] at hother
      exact absurd hother hsuperseded
    · exact absurd ⟨old, mem_filter.2 ⟨hold, hsuperseded⟩, rfl⟩ hexists
    · rw [Option.none_or]
      exact h.last old hold
  · rcases hrecord.mem hitem with ⟨-, -, -, hst⟩ | ⟨old, hold, -, rfl⟩
    · exact absurd (hst.symm.trans happroved) hstatus
    rw [supersede] at happroved ⊢
    split at happroved
    · cases happroved
    · next hnot =>
      rw [if_neg hnot]
      exact (h.approved old hold happroved).concat call hrecord.audit_grows

variable {transferId : JsString} {actor : TransferReviewer}

theorem mayApprove_of_reviewable (h : Reviewable state transferId actor attempt) :
    MayApprove state attempt actor := by
  refine ⟨?_, h.not_sender, h.not_recipient⟩
  have hmay := h.authorized
  rw [mayReview] at hmay
  split at hmay
  · cases hmay
  · next event hevent =>
    simp only [Bool.and_eq_true, Bool.or_eq_true, decide_eq_true_eq] at hmay
    exact hmay.2.imp id fun horganizer ↦ ⟨horganizer.1, event, hevent, horganizer.2⟩

/-- A decision of a reviewer who may decide keeps the duties. -/
theorem reviewDuties_decided (h : ReviewDuties start calls (run reviewStep start calls))
    {decision : ReviewDecision} {reason : JsString} {now : JsNum}
    (hreview : Reviewable (run reviewStep start calls) transferId actor attempt) :
    ReviewDuties start (calls ++ [.review transferId decision actor reason now])
      ((run reviewStep start calls).withDecision transferId decision actor reason now) := by
  have haudit :
      ((run reviewStep start calls).withDecision transferId decision actor reason now).audit =
      (run reviewStep start calls).audit ++
        [⟨transferId, actor.kind.audited, actor.id, reason, now, decision.status⟩] := rfl
  have hgrows : (run reviewStep start calls).audit <+:
      ((run reviewStep start calls).withDecision transferId decision actor reason now).audit := by
    rw [haudit]
    exact prefix_append _ _
  refine ⟨(ids_withDecision ..).symm ▸ h.distinct, fun item hitem ↦ ?_,
    fun item hitem happroved ↦ ?_⟩
  · rw [attempts_withDecision] at hitem
    obtain ⟨old, hold, rfl⟩ := mem_map.1 hitem
    rw [haudit, lastStatus_append, lastStatus_singleton]
    by_cases hid : old.id = transferId
    · rw [if_pos hid, if_pos hid.symm]
      rfl
    · rw [if_neg hid, if_neg (Ne.symm hid), Option.none_or]
      exact h.last old hold
  · rw [attempts_withDecision] at hitem
    obtain ⟨old, hold, rfl⟩ := mem_map.1 hitem
    by_cases hid : old.id = transferId
    · rw [if_pos hid] at happroved ⊢
      have hfound := mem_of_find?_eq_some hreview.attempt_eq
      have hfoundId : attempt.id = transferId := by
        simpa using find?_some hreview.attempt_eq
      obtain rfl : old = attempt := eq_of_id_eq h.distinct hold hfound (hid.trans hfoundId.symm)
      obtain rfl : decision = .approve := by
        cases decision
        · rfl
        · cases happroved
      have hmay := mayApprove_of_reviewable hreview
      refine ⟨calls, [], actor, reason, now, by rw [hid], hmay, ?_⟩
      rw [haudit, hid]
      exact mem_append_right _ mem_cons_self
    · rw [if_neg hid] at happroved ⊢
      exact (h.approved old hold happroved).concat _ hgrows

/-- The step: every call keeps the log and the audit in agreement, and the approvals warranted. -/
theorem reviewDuties_step (h : ReviewDuties start calls (run reviewStep start calls))
    (call : ReviewCall) :
    ReviewDuties start (calls ++ [call]) (reviewStep (run reviewStep start calls) call) := by
  have hsame : ∀ next : DomainState,
      next.transferRisk = (run reviewStep start calls).transferRisk →
      ReviewDuties start (calls ++ [call]) next := by
    intro next hrisk
    have hattempts : next.attempts = (run reviewStep start calls).attempts := by
      rw [attempts, hrisk, attempts]
    have haudit : next.audit = (run reviewStep start calls).audit := by
      rw [audit, hrisk, audit]
    refine ⟨by rw [hattempts]; exact h.distinct, ?_, ?_⟩
    · rw [hattempts, haudit]
      exact h.last
    · rw [hattempts]
      intro item hitem happroved
      exact (h.approved item hitem happroved).concat call (by rw [haudit])
  have heffect := reviewStep_effect (run reviewStep start calls) call
  generalize reviewStep (run reviewStep start calls) call = next at heffect ⊢
  cases heffect with
  | idle => exact hsame _ rfl
  | recorded hadmissible hrecorded =>
    obtain ⟨-, rfl⟩ := hrecorded
    exact reviewDuties_recorded h (recordedAs_record _ _ _ rfl _ _ _) (status_ne _).2 _
  | transferred hadmissible htransfer =>
    obtain ⟨ticket, -, -, hrecord, -, -⟩ := transferred_parts htransfer
    exact reviewDuties_recorded h hrecord nofun _
  | decided hreview => exact reviewDuties_decided h hreview
  | redeemed hredeem => exact hsame _ rfl

/-- **No call rewrites the audit.** -/
theorem audit_grows (state : DomainState) (call : ReviewCall) :
    state.audit <+: (reviewStep state call).audit := by
  have heffect := reviewStep_effect state call
  generalize reviewStep state call = next at heffect ⊢
  cases heffect with
  | idle => exact prefix_refl _
  | recorded hadmissible hrecorded =>
    obtain ⟨-, rfl⟩ := hrecorded
    exact (recordedAs_record _ _ _ rfl _ _ _).audit_grows
  | transferred hadmissible htransfer =>
    obtain ⟨ticket, -, -, hrecord, -, -⟩ := transferred_parts htransfer
    exact hrecord.audit_grows
  | decided hreview => exact prefix_append _ _
  | redeemed hredeem => exact prefix_refl _

/-- The audit is only ever added to. -/
theorem audit_grows_run (state : DomainState) (calls : List ReviewCall) :
    state.audit <+: (run reviewStep state calls).audit :=
  run_invariant (fun s ↦ state.audit <+: s.audit) (fun s c h ↦ h.trans (audit_grows s c))
    (prefix_refl _) calls

/-- **Separation of duties.** After every run from a state without attempts, ids are unique, the
last audit entry of an attempt carries its status, every approved attempt was approved by a
maintainer or the organizer of its event who was neither sender nor recipient, and the audit of an
attempt has only been extended. -/
theorem review_duties {start : DomainState} (hstart : start.attempts = [])
    (calls : List ReviewCall) :
    ReviewDuties start calls (run reviewStep start calls) ∧
    ∀ earlier later, calls = earlier ++ later → ∀ id,
      (run reviewStep start earlier).auditOf id <+: (run reviewStep start calls).auditOf id := by
  constructor
  · refine history_invariant (ReviewDuties start) (fun past c h ↦ reviewDuties_step h c) ?_ calls
    constructor <;> simp [hstart]
  · rintro earlier later rfl id
    rw [run_append]
    exact (audit_grows_run _ later).filter _

/-- The reviewed resale, seen from the audit. -/
theorem review_duties_resale :
    lastStatus (run reviewStep resaleState [resell 2000, approveResale, resell 4000]).audit
      (js "x2") = some .completed ∧
    ReviewDuties resaleState [resell 2000, approveResale, resell 4000]
      (run reviewStep resaleState [resell 2000, approveResale, resell 4000]) :=
  ⟨by decide +kernel, (review_duties rfl _).1⟩

end Utix.Tickets
