import Utix.Ownership.SafeTransfer

/-!
# Accepting a safe transfer, all or nothing

The system of safe transfers: calls of `commitMutation` whose mutation is a ticket mutation or an
acceptance, interleaved in any way with calls of `initiateSafeTicketTransfer`. An acceptance writes
twice: its mutation settles the proposal, and its compare-and-set installs the ticket state.

The two writes agree as long as no acceptance loses its compare-and-set, `Undisturbed`. When one
does, the proposal stays accepted with no transfer made, and the next attempt of the same call is
refused because the proposal is no longer pending: `accepted_without_transfer`.

## The invariant

`Balanced` counts the acceptances: an accepted proposal was accepted at the start, or has an
acceptance between its two writes (`Settling`), or has one in the log (`Committed`). The first two
have the transfer in the state they are about to install, the last in the state of the cell.
-/

namespace Utix.Ownership

open Js Lib Lib.Optimistic Idempotency Tickets Option List Lapsed Dict

/-! ### The system -/

/-- The mutations that are committed. -/
inductive SafeMutation
  | ticket (request : TicketRequest)
  | accept (params : AcceptSafeTicketTransferParams) (riskContext : TransferRiskContext)

/-- The mutation as `commitMutation` runs it, with the ownership store beside the cell. -/
def runSafeMutation (options : IdempotencyOptions) :
    SafeMutation → AcceptReadings → DomainState → OwnershipTransferStore →
      Option (Except InvariantViolation DomainState) × OwnershipTransferStore
  | .ticket request, readings, state, store =>
    (some ((request.at readings.transferClock).apply state), store)
  | .accept params riskContext, readings, state, store =>
    let accepted := acceptSafeTicketTransfer options state params riskContext readings store
    (accepted.1.map (Except.map Prod.fst), accepted.2)

abbrev SafeSystem :=
  CommitSystem SafeMutation AcceptReadings OwnershipTransferStore InvariantViolation

/-- A call of the system. -/
abbrev SafeCall := CommitCall SafeMutation AcceptReadings OwnershipTransferStore InvariantViolation

/-- One step: an initiation, with whatever state its caller has at hand, or a step of a commit. -/
inductive SafeStep
  | initiate (state : DomainState) (params : InitiateSafeTicketTransferParams)
    (draw : OwnershipDraw)
  | commit (step : CommitStep SafeMutation AcceptReadings)

/-- The system after a step. -/
def safeStep (options : IdempotencyOptions) (system : SafeSystem) : SafeStep → SafeSystem
  | .initiate state params draw =>
    { system with side := (initiateSafeTicketTransfer options state params draw system.side).2 }
  | .commit step => commitStep (runSafeMutation options) system step

/-- The proposal that the mutation accepts. -/
def SafeMutation.accepts : SafeMutation → Option JsString
  | .ticket _ => none
  | .accept params _ => some params.transferId

/-- The proposal that the call has accepted, while it is about to install the transfer. -/
def settles (call : SafeCall) : Option JsString :=
  match call.phase with
  | .installing _ _ _ _ => call.mutation.accepts
  | _ => none

/-- The call has settled a proposal, and the cell is no longer at the version it has read. -/
def overtaken (system : SafeSystem) (call : SafeCall) : Bool :=
  match call.phase with
  | .installing snapshot _ _ _ =>
    call.mutation.accepts.isSome && system.cell.version != snapshot.version
  | _ => false

/-- **The condition**: ids of new proposals are not in use, and an acceptance compares and sets
while the cell is still at the version it has read. -/
def Undisturbed (system : SafeSystem) : SafeStep → Prop
  | .initiate _ _ draw => system.side.proposalsById.get draw.transferId = none
  | .commit (.compareAndSet caller) => (system.calls.get caller).all (!overtaken system ·) = true
  | .commit _ => True

instance (system : SafeSystem) : DecidablePred (Undisturbed system)
  | .initiate _ _ _ => inferInstanceAs (Decidable (_ = none))
  | .commit (.compareAndSet _) => inferInstanceAs (Decidable (_ = true))
  | .commit (.start _ _ _) => .isTrue trivial
  | .commit (.read _) => .isTrue trivial
  | .commit (.mutate _ _) => .isTrue trivial

variable {caller : ℕ} {call : SafeCall} {snapshot : Cell DomainState} {readings : AcceptReadings}
  {next : DomainState} {system : SafeSystem} {side : OwnershipTransferStore}

/-- Then only a ticket mutation can lose a compare-and-set. -/
theorem accepts_eq_none_of_lost (h : Undisturbed system (.commit (.compareAndSet caller)))
    (hcall : system.calls.get caller = some call)
    (hphase : call.phase = .installing snapshot readings side next)
    (hset : system.cell.compareAndSet snapshot.version next = none) :
    call.mutation.accepts = none := by
  rw [Undisturbed, hcall, all_some, overtaken, hphase] at h
  by_contra haccepts
  have hversion : system.cell.version = snapshot.version := by
    simpa [isSome_iff_ne_none.2 haccepts] using h
  rw [Cell.compareAndSet, if_pos hversion] at hset
  cases hset

/-! ### What the stores say -/

/-- Some call has accepted the proposal and is about to install the transfer. -/
def Settling (calls : Dict ℕ SafeCall) (id : JsString) : Prop :=
  ∃ caller call, calls.get caller = some call ∧ settles call = some id

/-- An acceptance of the proposal was committed. -/
def Committed (log : List (Commit SafeMutation AcceptReadings OwnershipTransferStore))
    (id : JsString) : Prop :=
  ∃ commit ∈ log, commit.mutation.accepts = some id

/-- The transfer that the proposal and its acceptance describe is on record. -/
def Recorded (params : AcceptSafeTicketTransferParams) (proposals : Proposals)
    (transfers : List TransferRecord) : Prop :=
  ∃ p timestamp, proposals.get params.transferId = some p ∧
    (params.transfer p).record timestamp ∈ transfers

variable {params : AcceptSafeTicketTransferParams}

/-- What is recorded stays recorded as proposals are carried on and transfers are added. -/
theorem Recorded.mono {before after : Proposals} {transfers more : List TransferRecord}
    (h : Recorded params before transfers) (hcarried : Carried before after)
    (hmore : transfers ⊆ more) : Recorded params after more := by
  obtain ⟨p, timestamp, hp, hmem⟩ := h
  obtain ⟨status, settledAt, hafter⟩ := hcarried _ p hp
  -- the transfer depends on neither the status nor the time of settlement
  exact ⟨_, timestamp, hafter, hmore hmem⟩

/-- A call that is about to install a transfer has it in the next state. -/
def Promises (proposals : Proposals) (call : SafeCall) : Prop :=
  ∀ params riskContext snapshot readings side next, call.mutation = .accept params riskContext →
    call.phase = .installing snapshot readings side next → Recorded params proposals next.transfers

/-- So does what a call between its two writes promises. -/
theorem Promises.mono {before after : Proposals} (h : Promises before call)
    (hcarried : Carried before after) : Promises after call :=
  fun params riskContext snapshot readings side next hmutation hphase ↦
    (h params riskContext snapshot readings side next hmutation hphase).mono hcarried
      (List.Subset.refl _)

/-- **The invariant.** -/
structure Balanced (options : IdempotencyOptions) (initial : DomainState) (start : Proposals)
    (system : SafeSystem) : Prop where
  coherent : Coherent (runSafeMutation options) initial system
  filed : Filed system.side.proposalsById
  accepted : ∀ id, Accepted system.side.proposalsById id ↔
    Accepted start id ∨ Settling system.calls id ∨ Committed system.log id
  promises : ∀ caller call, system.calls.get caller = some call →
    Promises system.side.proposalsById call
  recorded : ∀ commit ∈ system.log, ∀ params riskContext,
    commit.mutation = .accept params riskContext →
    Recorded params system.side.proposalsById system.cell.state.transfers

variable {options : IdempotencyOptions} {initial : DomainState} {start : Proposals}

/-! ### Steps that accept nothing -/

variable {id : JsString}

/-- Only the call that changes can start or stop settling. -/
theorem settling_set {calls : Dict ℕ SafeCall}
    (hold : ∀ old, calls.get caller = some old → settles old ≠ some id) :
    Settling (calls.set caller call) id ↔ Settling calls id ∨ settles call = some id := by
  constructor
  · rintro ⟨other, found, hget, hsettles⟩
    obtain ⟨-, rfl⟩ | ⟨-, hget⟩ := get_set_eq_some hget
    · exact .inr hsettles
    · exact .inl ⟨other, found, hget, hsettles⟩
  · rintro (⟨other, found, hget, hsettles⟩ | hsettles)
    · have hne : caller ≠ other := by
        rintro rfl
        exact hold found hget hsettles
      exact ⟨other, found, by rw [get_set, if_neg hne]; exact hget, hsettles⟩
    · exact ⟨caller, call, by rw [get_set, if_pos rfl], hsettles⟩

variable {proposals : Proposals}

/-- A call that settles no proposal promises nothing. -/
theorem promises_of_settles_none (h : settles call = none) : Promises proposals call := by
  intro params riskContext snapshot readings side next hmutation hphase
  rw [settles, hphase] at h
  dsimp only at h
  rw [hmutation] at h
  cases h

variable {store : OwnershipTransferStore}

section

variable (h : Balanced options initial start system)
include h

/-- The proposals change, but none is accepted. -/
theorem Balanced.of_store (hfiled : Filed store.proposalsById)
    (hcarried : Carried system.side.proposalsById store.proposalsById)
    (haccepted : ∀ id, Accepted store.proposalsById id ↔ Accepted system.side.proposalsById id) :
    Balanced options initial start { system with side := store } where
  coherent := ⟨⟨h.coherent.serialized.serial, h.coherent.serialized.returned,
    h.coherent.serialized.once, h.coherent.serialized.mutations⟩, h.coherent.sound⟩
  filed := hfiled
  accepted id := (haccepted id).trans (h.accepted id)
  promises caller call hget := (h.promises caller call hget).mono hcarried
  recorded commit hcommit params riskContext hmutation :=
    (h.recorded commit hcommit params riskContext hmutation).mono hcarried (List.Subset.refl _)

/-- Expired proposals do not disturb the balance. -/
theorem Balanced.of_lapsed {times : List JsNum}
    (hlapsed : Lapsed options times system.side.proposalsById store.proposalsById) :
    Balanced options initial start { system with side := store } :=
  h.of_store (hlapsed.filed h.filed) hlapsed.carried hlapsed.accepted_iff

/-- A call moves without settling anything, before or after. -/
theorem Balanced.of_move (hold : ∀ old, system.calls.get caller = some old → settles old = none)
    (hnew : settles call = none)
    (hcoherent : Coherent (runSafeMutation options) initial
      { system with calls := system.calls.set caller call }) :
    Balanced options initial start { system with calls := system.calls.set caller call } where
  coherent := hcoherent
  filed := h.filed
  accepted id := by
    rw [h.accepted, settling_set fun old hget ↦ by
      rw [hold old hget]
      exact nofun]
    rw [hnew]
    simp
  promises := forall_get_set h.promises (promises_of_settles_none hnew)
  recorded := h.recorded

end

/-! ### The two writes of an acceptance -/

variable {state : DomainState}

/-- No mutation forgets a transfer. -/
theorem transfers_subset {mutation : SafeMutation}
    (h : (runSafeMutation options mutation readings state store).1 = some (.ok next)) :
    state.transfers ⊆ next.transfers := by
  cases mutation with
  | ticket request =>
    have happly := some.inj h
    rcases ticketStep_cases state (request.at readings.transferClock) with hstep |
      ⟨_, _, _, _, _, hstep⟩ | ⟨_, _, _, ticket, _, htransfer⟩ | ⟨_, _, _, _, hstep⟩
    · rw [ticketStep_of_ok happly] at hstep
      rw [hstep]
      exact List.Subset.refl _
    · rw [ticketStep_of_ok happly] at hstep
      rw [hstep]
      exact List.Subset.refl _
    · rw [ticketStep_of_ok happly] at htransfer
      obtain ⟨timestamp, htransfers⟩ := htransfer.transfers
      rw [htransfers]
      exact subset_append_left _ _
    · rw [ticketStep_of_ok happly] at hstep
      rw [hstep]
      exact List.Subset.refl _
  | accept params riskContext =>
    obtain ⟨reply, hreply, hmap⟩ := map_eq_some_iff.1 h
    cases reply with
    | error violation => cases hmap
    | ok pair =>
      obtain ⟨_, _, timestamp, _, _, _, htransfers⟩ :=
        acceptSafeTicketTransfer_ok (Prod.ext hreply rfl)
      obtain rfl := Except.ok.inj hmap
      rw [htransfers]
      exact subset_append_left _ _

variable {p : OwnershipTransferProposal} {settledAt : JsString}

/-- Settling a proposal accepts that one and no other. -/
theorem accepted_set_iff {key : JsString} :
    Accepted (proposals.set id (p.settledAs .accepted settledAt)) key ↔
      Accepted proposals key ∨ id = key := by
  rw [Accepted, Accepted]
  simp only [get_set]
  split
  · next hkey => exact ⟨fun _ ↦ .inr hkey, fun _ ↦ ⟨_, rfl, rfl⟩⟩
  · next hkey => exact ⟨.inl, fun h ↦ h.resolve_right hkey⟩

/-- **The first write**: the proposal is accepted, and the call settles it. -/
theorem Balanced.of_accepted (h : Balanced options initial start system)
    {riskContext : TransferRiskContext} {answer : OwnershipAnswer}
    (hcall : system.calls.get caller = some call) (hphase : call.phase = .holding snapshot)
    (hmutation : call.mutation = .accept params riskContext)
    (haccept : acceptSafeTicketTransfer options snapshot.state params riskContext readings
      system.side = (some (.ok (next, answer)), store))
    (hcoherent : Coherent (runSafeMutation options) initial
      { system with
        calls := system.calls.set caller
          { call with phase := .installing snapshot readings system.side next }
        side := store }) :
    Balanced options initial start
      { system with
        calls := system.calls.set caller
          { call with phase := .installing snapshot readings system.side next }
        side := store } := by
  obtain ⟨p, settledAt, timestamp, hp, hpending, hsettle, htransfers⟩ :=
    acceptSafeTicketTransfer_ok haccept
  have hid : (p.settledAs .accepted settledAt).id = params.transferId := h.filed _ p hp
  have hstore : store.proposalsById =
      system.side.proposalsById.set params.transferId (p.settledAs .accepted settledAt) := by
    rw [hsettle, ← hid]
    rfl
  have hcarried : Carried system.side.proposalsById store.proposalsById := by
    rw [hstore]
    intro key q hq
    rw [get_set]
    split
    · next hkey =>
      subst hkey
      rw [← mem_unique hp hq]
      exact ⟨.accepted, some settledAt, rfl⟩
    · exact ⟨q.status, q.settledAt, hq⟩
  refine ⟨hcoherent, ?_, fun id ↦ ?_, forall_get_set
    (fun other found hget ↦ (h.promises other found hget).mono hcarried) ?_, ?_⟩
  · show Filed store.proposalsById
    rw [hstore, ← hid]
    exact h.filed.set _
  · show Accepted store.proposalsById id ↔ _
    rw [hstore, accepted_set_iff, h.accepted, settling_set fun old hget ↦ ?_]
    · show _ ↔ _ ∨ (_ ∨ call.mutation.accepts = some id) ∨ _
      rw [hmutation, SafeMutation.accepts, some.injEq]
      tauto
    · obtain rfl : call = old := mem_unique hcall hget
      rw [settles, hphase]
      exact (by cases ·)
  · intro params' riskContext' snapshot' readings' side' next' hmutation' hphase'
    cases hmutation.symm.trans hmutation'
    cases hphase'
    obtain ⟨status, at', hafter⟩ := hcarried _ p hp
    refine ⟨_, timestamp, hafter, ?_⟩
    rw [htransfers]
    exact mem_append_right _ (mem_singleton_self _)
  · intro commit hcommit params' riskContext' hmutation'
    exact (h.recorded commit hcommit params' riskContext' hmutation').mono hcarried
      (List.Subset.refl _)

/-- **The second write**: the transfer is committed, and the call no longer settles anything. -/
theorem Balanced.of_installed (h : Balanced options initial start system) {cell : Cell DomainState}
    (hcall : system.calls.get caller = some call)
    (hphase : call.phase = .installing snapshot readings side next)
    (hset : system.cell.compareAndSet snapshot.version next = some cell)
    (hcoherent : Coherent (runSafeMutation options) initial
      { system.move caller call (.finished (.ok next call.attempt)) with
        cell := cell
        log := system.log ++ [⟨caller, call.mutation, readings, side⟩] }) :
    Balanced options initial start
      { system.move caller call (.finished (.ok next call.attempt)) with
        cell := cell
        log := system.log ++ [⟨caller, call.mutation, readings, side⟩] } := by
  obtain ⟨hversion, -, hstate⟩ := Cell.compareAndSet_eq_some hset
  have hsound := h.coherent.sound caller call hcall
  simp only [CommitCall.Sound, hphase] at hsound
  have hgrows : system.cell.state.transfers ⊆ cell.state.transfers := by
    rw [hstate, ← hsound.1.state_eq hversion.symm]
    have happly := hsound.2
    rw [Commit.apply] at happly
    split at happly
    · next heq => exact transfers_subset (heq.trans (some.inj happly ▸ rfl))
    · cases happly
  have hsettles : settles call = call.mutation.accepts := by rw [settles, hphase]
  refine ⟨hcoherent, h.filed, fun id ↦ ?_,
    forall_get_set h.promises (promises_of_settles_none rfl), ?_⟩
  · -- the call leaves `Settling` and enters `Committed`
    refine (h.accepted id).trans (or_congr_right ?_)
    constructor
    · rintro (⟨other, found, hget, hfound⟩ | ⟨commit, hcommit, haccepts⟩)
      · by_cases hother : caller = other
        · subst hother
          obtain rfl : call = found := mem_unique hcall hget
          exact .inr ⟨_, mem_append_right _ (mem_singleton_self _), hsettles.symm.trans hfound⟩
        · refine .inl ⟨other, found, ?_, hfound⟩
          simp only [CommitSystem.move, get_set]
          rw [if_neg hother]
          exact hget
      · exact .inr ⟨commit, mem_append_left _ hcommit, haccepts⟩
    · rintro (⟨other, found, hget, hfound⟩ | ⟨commit, hcommit, haccepts⟩)
      · obtain ⟨-, rfl⟩ | ⟨-, hget⟩ := get_set_eq_some hget
        · cases hfound
        · exact .inl ⟨other, found, hget, hfound⟩
      · rcases mem_append.1 hcommit with hearlier | hlatest
        · exact .inr ⟨commit, hearlier, haccepts⟩
        · rw [mem_singleton.1 hlatest] at haccepts
          exact .inl ⟨caller, call, hcall, hsettles.trans haccepts⟩
  · intro commit hcommit params riskContext hmutation
    rcases mem_append.1 hcommit with hearlier | hlatest
    · exact (h.recorded commit hearlier params riskContext hmutation).mono
        (refl options [] _).carried hgrows
    rw [mem_singleton.1 hlatest] at hmutation
    show Recorded params system.side.proposalsById cell.state.transfers
    rw [hstate]
    exact h.promises caller call hcall params riskContext snapshot readings side next hmutation
      hphase

/-! ### One step and a run -/

/-- The balance holds at the start. -/
theorem balanced_init (initial : DomainState) (hfiled : Filed store.proposalsById) :
    Balanced options initial store.proposalsById (CommitSystem.init initial store) where
  coherent := coherent_init _ initial store
  filed := hfiled
  accepted id := by
    have hsettling : ¬ Settling (CommitSystem.init initial store : SafeSystem).calls id :=
      fun ⟨_, _, hget, _⟩ ↦ nomatch hget
    have hcommitted : ¬ Committed (CommitSystem.init initial store : SafeSystem).log id :=
      fun ⟨_, hmem, _⟩ ↦ nomatch hmem
    exact ⟨.inl, fun h ↦ h.resolve_right fun h ↦ h.elim hsettling hcommitted⟩
  promises _ _ hget := nomatch hget
  recorded _ hmem := nomatch hmem

/-- What an initiation does to the proposals. -/
theorem initiateSafe_cases (hfiled : Filed store.proposalsById) (options : IdempotencyOptions)
    (state : DomainState) (params : InitiateSafeTicketTransferParams) (draw : OwnershipDraw) :
    Lapsed options [.ofInt draw.clock] store.proposalsById
      (initiateSafeTicketTransfer options state params draw store).2.proposalsById ∨
    (∀ violation, (initiateSafeTicketTransfer options state params draw store).1 ≠
      some (.error violation)) ∧
    ∃ mid p, Lapsed options [.ofInt draw.clock] store.proposalsById mid ∧
      p.id = draw.transferId ∧ p.status = .pending ∧
      (initiateSafeTicketTransfer options state params draw store).2.proposalsById =
        mid.set p.id p := by
  rw [initiateSafeTicketTransfer]
  split
  · exact .inl (refl _ _ _)
  rcases initiate_cases hfiled (rfl : initiate options store params.initiation draw = (_, _))
    with hlapsed | ⟨hanswer, hfile⟩
  · exact .inl hlapsed
  refine .inr ⟨fun violation hviolation ↦ ?_, hfile⟩
  obtain ⟨reply, hreply, hmap⟩ := map_eq_some_iff.1 hviolation
  cases reply with
  | error failure => exact hanswer failure hreply
  | ok value => cases hmap

/-- A new proposal keeps it. -/
theorem balanced_initiate (h : Balanced options initial start system) (state : DomainState)
    (params : InitiateSafeTicketTransferParams) {draw : OwnershipDraw}
    (hdraw : system.side.proposalsById.get draw.transferId = none) :
    Balanced options initial start (safeStep options system (.initiate state params draw)) := by
  rw [safeStep]
  rcases initiateSafe_cases h.filed options state params draw with hlapsed |
    ⟨-, mid, p, hlapsed, hid, hpending, hfile⟩
  · exact h.of_lapsed hlapsed
  have hnone : mid.get p.id = none := by
    rw [hid]
    rcases hlapsed draw.transferId with heq | ⟨q, _, _, hq, _⟩
    · exact heq.trans hdraw
    · rw [hdraw] at hq
      cases hq
  refine h.of_store ?_ (fun id q hq ↦ ?_) (fun id ↦ ?_)
  · rw [hfile]
    exact (hlapsed.filed h.filed).set p
  · obtain ⟨status, settledAt, hmid⟩ := hlapsed.carried id q hq
    have hne : p.id ≠ id := by
      rintro rfl
      rw [hmid] at hnone
      cases hnone
    exact ⟨status, settledAt, by rw [hfile, get_set, if_neg hne]; exact hmid⟩
  · rw [← hlapsed.accepted_iff, Accepted, Accepted, hfile]
    simp only [get_set]
    split
    · next heq =>
      -- the new proposal is pending
      subst heq
      rw [hnone]
      constructor
      · rintro ⟨q, hq, hstatus⟩
        rw [← some.inj hq, hpending] at hstatus
        cases hstatus
      · rintro ⟨q, hq, -⟩
        cases hq
    · exact Iff.rfl

/-- A mutation that has run: it settles a proposal, or only lets overdue ones expire. -/
theorem balanced_ran (h : Balanced options initial start system) (readings : AcceptReadings)
    (hcall : system.calls.get caller = some call) (hphase : call.phase = .holding snapshot)
    (hcoherent : Coherent (runSafeMutation options) initial
      (runMutation (runSafeMutation options) system caller call snapshot readings)) :
    Balanced options initial start
      (runMutation (runSafeMutation options) system caller call snapshot readings) := by
  have hold : ∀ old, system.calls.get caller = some old → settles old = none := by
    intro old hget
    obtain rfl : call = old := mem_unique hcall hget
    rw [settles, hphase]
  cases hmutation : call.mutation with
  | ticket request =>
    rw [runMutation, hmutation] at hcoherent ⊢
    refine (h.of_lapsed (refl options [] _)).of_move hold ?_ hcoherent
    rw [settles]
    split
    · rw [hmutation]
      rfl
    · rfl
  | accept params riskContext =>
    rw [runMutation, hmutation] at hcoherent ⊢
    rcases haccept : acceptSafeTicketTransfer options snapshot.state params riskContext readings
      system.side with ⟨answer, store⟩
    simp only [runSafeMutation, haccept] at hcoherent ⊢
    cases answer with
    | none =>
      exact (h.of_lapsed (acceptSafeTicketTransfer_lapsed h.filed haccept
        (fun _ hr ↦ by cases hr))).of_move hold rfl hcoherent
    | some reply =>
      cases reply with
      | error violation =>
        exact (h.of_lapsed (acceptSafeTicketTransfer_lapsed h.filed haccept
          (fun _ hr ↦ by cases hr))).of_move hold rfl hcoherent
      | ok pair => exact h.of_accepted hcall hphase hmutation haccept hcoherent

/-- **Every step that is not disturbed keeps the books.** -/
theorem balanced_step (system : SafeSystem) (step : SafeStep)
    (h : Balanced options initial start system) (hstep : Undisturbed system step) :
    Balanced options initial start (safeStep options system step) := by
  cases step with
  | initiate state params draw => exact balanced_initiate h state params hstep
  | commit step =>
    rw [safeStep]
    have hcoherent := coherent_step h.coherent step
    have heffect := commitStep_effect (runSafeMutation options) system step
    generalize commitStep (runSafeMutation options) system step = after at heffect hcoherent ⊢
    cases heffect with
    | idle => exact h
    | started mutation maxAttempts attempts hcall =>
      refine h.of_move (fun old hget ↦ ?_) rfl hcoherent
      rw [hcall] at hget
      cases hget
    | @fetched caller call hcall hphase =>
      refine h.of_move (fun old hget ↦ ?_) rfl hcoherent
      obtain rfl : call = old := mem_unique hcall hget
      rw [settles, hphase]
    | ran readings hcall hphase => exact balanced_ran h readings hcall hphase hcoherent
    | installed hcall hphase hset => exact h.of_installed hcall hphase hset hcoherent
    | @lost caller call snapshot readings side next hcall hphase hset =>
      have haccepts := accepts_eq_none_of_lost hstep hcall hphase hset
      have hmutation : call.retried.mutation = call.mutation := by
        rw [CommitCall.retried]
        split <;> rfl
      refine h.of_move (fun old hget ↦ ?_) ?_ hcoherent
      · obtain rfl : call = old := mem_unique hcall hget
        rw [settles, hphase]
        exact haccepts
      · rw [settles]
        split
        · rw [hmutation]
          exact haccepts
        · rfl

/-! ### Calls that fail -/

/-- The call has returned an error, or let out an exception. -/
def failed (call : SafeCall) : Bool :=
  match call.phase with
  | .finished (.ok _ _) => false
  | .finished _ => true
  | _ => false

/-- The call has committed, or has settled a proposal and is about to. -/
def Secured (call : SafeCall) : Prop := call.returned = true ∨ settles call ≠ none

theorem Secured.not_failed (h : Secured call) : failed call = false := by
  rw [Secured, CommitCall.returned, settles] at h
  rw [failed]
  cases hphase : call.phase with
  | finished outcome => cases outcome <;> simp_all
  | _ => rfl

/-- **Nothing undoes it**: a call that has settled a proposal goes on to commit. -/
theorem secured_step {step : SafeStep} (hstep : Undisturbed system step)
    (h : ∃ call, system.calls.get caller = some call ∧ Secured call) :
    ∃ call, (safeStep options system step).calls.get caller = some call ∧ Secured call := by
  obtain ⟨call, hget, hsecured⟩ := h
  cases step with
  | initiate state params draw => exact ⟨call, hget, hsecured⟩
  | commit step =>
    -- a call that moves is this one or another, and this one can only install
    have hmove : ∀ other old new, system.calls.get other = some old →
        (Secured old → Secured new) →
        ∃ call, (system.calls.set other new).get caller = some call ∧ Secured call := by
      intro other old new hold hnew
      rw [get_set]
      split
      · next heq =>
        subst heq
        obtain rfl : call = old := mem_unique hget hold
        exact ⟨new, rfl, hnew hsecured⟩
      · exact ⟨call, hget, hsecured⟩
    have hquiet : ∀ {old : SafeCall}, old.returned = false → settles old = none →
        ¬ Secured old := by
      rintro old hreturned hsettles (h | h)
      · rw [hreturned] at h
        cases h
      · exact h hsettles
    rw [safeStep]
    have heffect := commitStep_effect (runSafeMutation options) system step
    generalize commitStep (runSafeMutation options) system step = after at heffect ⊢
    cases heffect with
    | idle => exact ⟨call, hget, hsecured⟩
    | @started other mutation maxAttempts attempts hcall =>
      have hne : other ≠ caller := by
        rintro rfl
        rw [hcall] at hget
        cases hget
      exact ⟨call, by rw [get_set, if_neg hne]; exact hget, hsecured⟩
    | @fetched other old hcall hphase =>
      exact hmove other old _ hcall fun h ↦ absurd h
        (hquiet (by rw [CommitCall.returned, hphase]) (by rw [settles, hphase]))
    | @ran other old snapshot readings hcall hphase =>
      exact hmove other old _ hcall fun h ↦ absurd h
        (hquiet (by rw [CommitCall.returned, hphase]) (by rw [settles, hphase]))
    | @installed other old snapshot readings side next cell hcall hphase hset =>
      exact hmove other old _ hcall fun _ ↦ .inl rfl
    | @lost other old snapshot readings side next hcall hphase hset =>
      refine hmove other old _ hcall fun h ↦ absurd h
        (hquiet (by rw [CommitCall.returned, hphase]) ?_)
      rw [settles, hphase]
      exact accepts_eq_none_of_lost hstep hcall hphase hset

/-- The times at which a step looks at deadlines. -/
def stepTimes (system : SafeSystem) : SafeStep → List JsNum
  | .initiate _ _ draw => [.ofInt draw.clock]
  | .commit (.mutate caller readings) =>
    match (system.calls.get caller).map CommitCall.mutation with
    | some (.accept params _) => params.times readings
    | _ => []
  | .commit _ => []

/-- The call that makes the step ends in an error: at once, or in the final system. -/
def Fails (options : IdempotencyOptions) (system final : SafeSystem) : SafeStep → Prop
  | .initiate state params draw => ∃ violation,
      (initiateSafeTicketTransfer options state params draw system.side).1 = some (.error violation)
  | .commit step => ∃ call, final.calls.get step.caller = some call ∧ failed call = true

/-- The step leaves the ticket state alone and lets no more than overdue proposals expire. -/
def Harmless (options : IdempotencyOptions) (system : SafeSystem) (step : SafeStep) : Prop :=
  (safeStep options system step).cell = system.cell ∧
  Lapsed options (stepTimes system step) system.side.proposalsById
    (safeStep options system step).side.proposalsById

/-- A step of a commit is harmless, or its call is secured. -/
theorem harmless_or_secured (hfiled : Filed system.side.proposalsById)
    (step : CommitStep SafeMutation AcceptReadings) :
    Harmless options system (.commit step) ∨
    ∃ call, (safeStep options system (.commit step)).calls.get step.caller = some call ∧
      Secured call := by
  rw [Harmless, safeStep]
  have heffect := commitStep_effect (runSafeMutation options) system step
  generalize commitStep (runSafeMutation options) system step = after at heffect ⊢
  cases heffect with
  | @ran caller call snapshot readings hcall hphase =>
    rw [stepTimes, hcall, map_some]
    cases hmutation : call.mutation with
    | ticket request =>
      rw [runMutation, hmutation]
      exact .inl ⟨rfl, refl _ _ _⟩
    | accept params riskContext =>
      rw [runMutation, hmutation]
      rcases haccept : acceptSafeTicketTransfer options snapshot.state params riskContext readings
        system.side with ⟨answer, store⟩
      simp only [runSafeMutation, haccept]
      cases answer with
      | none =>
        exact .inl ⟨rfl, acceptSafeTicketTransfer_lapsed hfiled haccept (fun _ hr ↦ by cases hr)⟩
      | some reply =>
        cases reply with
        | error violation =>
          exact .inl ⟨rfl, acceptSafeTicketTransfer_lapsed hfiled haccept (fun _ hr ↦ by cases hr)⟩
        | ok pair =>
          refine .inr ⟨{ call with phase := .installing snapshot readings system.side pair.1 },
            ?_, .inr ?_⟩
          · exact (get_set _ _ _ _).trans (if_pos rfl)
          · simp [settles, hmutation, SafeMutation.accepts]
  | @installed caller call snapshot readings side next cell hcall hphase hset =>
    exact .inr ⟨{ call with phase := .finished (.ok next call.attempt) },
      (get_set _ _ _ _).trans (if_pos rfl), .inl rfl⟩
  | _ => exact .inl ⟨rfl, refl _ _ _⟩

/-! ### All or nothing -/

/-- The committed ticket state has the transfer that the proposal describes, made by accepting
it. -/
def Transferred (system : SafeSystem) (id : JsString) (p : OwnershipTransferProposal) : Prop :=
  ∃ commit ∈ system.log, ∃ params riskContext timestamp,
    commit.mutation = .accept params riskContext ∧ params.transferId = id ∧
    (params.transfer p).record timestamp ∈ system.cell.state.transfers

/-- **Acceptance is all or nothing.** In every interleaving in which no acceptance loses its
compare-and-set, and ids of proposals are not drawn twice, a proposal that no call is in the middle
of settling is accepted exactly when it was accepted at the start or its transfer is in the
committed state; and a call that ends in an error has, in each of its steps, changed nothing but let
overdue proposals expire. -/
theorem safe_acceptance_all_or_nothing {initial : DomainState} {store : OwnershipTransferStore}
    (hfiled : Filed store.proposalsById) {steps : List SafeStep}
    (hsteps : Meets (safeStep options) Undisturbed (.init initial store) steps) :
    (∀ id p,
      (run (safeStep options) (.init initial store) steps).side.proposalsById.get id = some p →
      ¬ Settling (run (safeStep options) (.init initial store) steps).calls id →
      (p.status = .accepted ↔ Accepted store.proposalsById id ∨
        Transferred (run (safeStep options) (.init initial store) steps) id p)) ∧
    (∀ before step after, steps = before ++ step :: after →
      Fails options (run (safeStep options) (.init initial store) before)
        (run (safeStep options) (.init initial store) steps) step →
      Harmless options (run (safeStep options) (.init initial store) before) step) := by
  have hbalanced : ∀ {calls : List SafeStep},
      Meets (safeStep options) Undisturbed (.init initial store) calls →
      Balanced options initial store.proposalsById
        (run (safeStep options) (.init initial store) calls) := fun hcalls ↦
    run_induction (fun system step hinv hok ↦ balanced_step system step hinv hok)
      (balanced_init initial hfiled) hcalls
  constructor
  · intro id p hp hsettling
    have h := hbalanced hsteps
    have hiff : p.status = .accepted ↔ Accepted
        (run (safeStep options) (.init initial store) steps).side.proposalsById id :=
      ⟨fun hstatus ↦ ⟨p, hp, hstatus⟩, fun ⟨q, hq, hstatus⟩ ↦
        mem_unique hp hq ▸ hstatus⟩
    rw [hiff, h.accepted]
    refine or_congr_right ⟨fun hor ↦ ?_, ?_⟩
    · obtain ⟨commit, hcommit, haccepts⟩ := hor.resolve_left hsettling
      cases hmutation : commit.mutation with
      | ticket request =>
        rw [hmutation] at haccepts
        cases haccepts
      | accept params riskContext =>
        rw [hmutation] at haccepts
        cases haccepts
        obtain ⟨q, timestamp, hq, hmem⟩ := h.recorded commit hcommit params riskContext hmutation
        rw [← mem_unique hp hq] at hmem
        exact ⟨commit, hcommit, params, riskContext, timestamp, hmutation, rfl, hmem⟩
    · rintro ⟨commit, hcommit, params, riskContext, timestamp, hmutation, rfl, -⟩
      exact .inr ⟨commit, hcommit, by rw [hmutation]; rfl⟩
  · rintro before step after rfl hfails
    obtain ⟨hbefore, hok, hafter⟩ := meets_append.1 hsteps
    have hbook := (hbalanced hbefore).filed
    cases step with
    | initiate state params draw =>
      obtain ⟨violation, hviolation⟩ := hfails
      refine ⟨rfl, (initiateSafe_cases hbook options state params draw).resolve_right ?_⟩
      rintro ⟨hne, -⟩
      exact hne violation hviolation
    | commit step =>
      refine (harmless_or_secured hbook step).resolve_right fun hsecured ↦ ?_
      obtain ⟨call, hcall, hfailed⟩ := hfails
      obtain ⟨call', hcall', hsecured'⟩ := @run_induction _ _ _ _ _ _
        (fun s ↦ ∃ call, s.calls.get step.caller = some call ∧ Secured call)
        (fun _ _ h hok ↦ secured_step hok h) hsecured hafter
      rw [run_append, run_cons] at hcall
      obtain rfl : call = call' := mem_unique hcall hcall'
      rw [hsecured'.not_failed] at hfailed
      cases hfailed

/-! ### One acceptance that commits, and one that is disturbed -/

/-- A state in which `ALICE` holds the ticket `t1`. -/
def aliceHolds : DomainState := ticketStep galaState issueT1

/-- `ALICE` proposes to hand `t1` to `CAROL`. -/
def proposeToCarol : SafeStep :=
  .initiate aliceHolds
    { ticketId := js "t1", fromAddress := js "ALICE", toAddress := js "CAROL",
      actor := ⟨.user, js "ALICE"⟩ }
    { clock := 1000, transferId := js "ot-1" }

def carolAccepts : SafeMutation :=
  .accept { transferId := js "ot-1", transferRecordId := js "x1", nonce := js "n1",
            actor := ⟨.user, js "CAROL"⟩ } {}

/-- The acceptance up to its first write. -/
def acceptanceBegins : List SafeStep :=
  [proposeToCarol, .commit (.start 1 carolAccepts none), .commit (.read 1),
    .commit (.mutate 1 ⟨2000, 2000, 2000⟩)]

/-- `BOB` buys a ticket meanwhile. -/
def bobBuys : List SafeStep :=
  [.commit (.start 2 (.ticket (.issue (ticketFor "t2" "BOB"))) none), .commit (.read 2),
    .commit (.mutate 2 ⟨0, 2000, 0⟩), .commit (.compareAndSet 2)]

/-- The second write, and the next attempt should it fail. -/
def acceptanceEnds : List SafeStep :=
  [.commit (.compareAndSet 1), .commit (.read 1), .commit (.mutate 1 ⟨3000, 3000, 3000⟩),
    .commit (.compareAndSet 1)]

/-- The system after some steps. -/
def afterSteps (steps : List SafeStep) : SafeSystem :=
  run (safeStep {}) (.init aliceHolds {}) steps

/-- The status of the proposal. -/
def statusOf (system : SafeSystem) : Option OwnershipTransferStatus :=
  (system.side.proposalsById.get (js "ot-1")).map OwnershipTransferProposal.status

/-- Undisturbed, the acceptance leaves the proposal accepted and its transfer on record. -/
theorem safe_acceptance_of_carol :
    statusOf (afterSteps (acceptanceBegins ++ acceptanceEnds)) = some .accepted ∧
    (afterSteps (acceptanceBegins ++ acceptanceEnds)).cell.state.transfers.map TransferRecord.id =
      [js "x1"] ∧
    ∀ p, (afterSteps (acceptanceBegins ++ acceptanceEnds)).side.proposalsById.get (js "ot-1") =
        some p →
      ¬ Settling (afterSteps (acceptanceBegins ++ acceptanceEnds)).calls (js "ot-1") →
      (p.status = .accepted ↔ Accepted Dict.empty (js "ot-1") ∨
        Transferred (afterSteps (acceptanceBegins ++ acceptanceEnds)) (js "ot-1") p) := by
  refine ⟨by decide +kernel, by decide +kernel, fun p hp hsettling ↦ ?_⟩
  have hfiled : Filed ({} : OwnershipTransferStore).proposalsById := nofun
  refine (safe_acceptance_all_or_nothing hfiled ?_).1 (js "ot-1") p hp hsettling
  exact ⟨by decide +kernel, trivial, trivial, trivial, by decide +kernel, trivial, trivial,
    by decide +kernel, trivial⟩

/-- **An acceptance that loses its race**: the proposal is accepted, no transfer was made, and the
call is refused when it tries again. -/
theorem accepted_without_transfer :
    statusOf (afterSteps (acceptanceBegins ++ bobBuys ++ acceptanceEnds)) = some .accepted ∧
    (afterSteps (acceptanceBegins ++ bobBuys ++ acceptanceEnds)).cell.state.transfers = [] ∧
    ((afterSteps (acceptanceBegins ++ bobBuys ++ acceptanceEnds)).calls.get 1).map failed =
      some true ∧
    statusOf (afterSteps [proposeToCarol]) = some .pending := by
  decide +kernel

end Utix.Ownership
