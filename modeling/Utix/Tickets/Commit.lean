import Utix.Lib.Optimistic
import Utix.Tickets.Runs

/-!
# Optimistic commits

`commitMutation` of `core/invariants/commit.ts` over a state cell. Any number of calls run at the
same time, and the calls of a run interleave in three kinds of step: a call *reads* the cell, *runs
its mutation* on the state it has read, and *compares and sets*. A call whose compare-and-set is
lost starts over, up to its number of attempts.

The mutation is a parameter `exec`. It may use readings of the environment, it may throw, and it may
change a store of its own beside the cell; `issueTicket`, `transferTicket` and `redeemTicket` do
neither of the last two.

## The log

A system keeps the list of committed calls, in the order of their compare-and-set. It is not part of
the code: it is what `coherent_run` speaks about.
-/

namespace Utix.Tickets

open Lib Lib.Optimistic List Dict

/-! ### Calls in progress -/

/-- `CommitOutcome`; `thrown` is an exception of the mutation, which `commitMutation` lets out. -/
inductive CommitOutcome (ε : Type)
  | ok (value : DomainState) (attempts : ℕ)
  | rejected (code : ε) (attempts : ℕ)
  | conflict (attempts : ℕ)
  | thrown

/-- Where a call stands. -/
inductive CommitPhase (κ ω ε : Type)
  /-- It is about to read the cell. -/
  | reading
  /-- It has read this. -/
  | holding (snapshot : Cell DomainState)
  /-- Its mutation answered `next` with these readings, when the store beside the cell was
  `side`. -/
  | installing (snapshot : Cell DomainState) (readings : κ) (side : ω) (next : DomainState)
  | finished (outcome : CommitOutcome ε)

/-- A call of `commitMutation`. -/
structure CommitCall (μ κ ω ε : Type) where
  mutation : μ
  maxAttempts : ℕ
  attempt : ℕ
  phase : CommitPhase κ ω ε

/-- A committed call: who, which mutation, and what it saw beside the cell. -/
structure Commit (μ κ ω : Type) where
  caller : ℕ
  mutation : μ
  readings : κ
  side : ω

/-- The cell, the calls by their number, and the store that mutations may change. -/
structure CommitSystem (μ κ ω ε : Type) where
  cell : Cell DomainState
  calls : Dict ℕ (CommitCall μ κ ω ε)
  side : ω
  log : List (Commit μ κ ω)

/-- One step of the system. -/
inductive CommitStep (μ κ : Type)
  | start (caller : ℕ) (mutation : μ) (maxAttempts : Option ℤ)
  | read (caller : ℕ)
  | mutate (caller : ℕ) (readings : κ)
  | compareAndSet (caller : ℕ)

def defaultCommitAttempts : ℤ := 10

/-- The call that takes a step. -/
def CommitStep.caller {μ κ : Type} : CommitStep μ κ → ℕ
  | .start caller _ _ => caller
  | .read caller => caller
  | .mutate caller _ => caller
  | .compareAndSet caller => caller

variable {μ κ ω ε : Type}

/-- The system before any call, over `createMemoryStateCell(initial)`. -/
def CommitSystem.init (initial : DomainState) (side : ω) : CommitSystem μ κ ω ε where
  cell := ⟨0, initial⟩
  calls := .empty
  side := side
  log := []

/-- A call moves to a phase. -/
def CommitSystem.move (system : CommitSystem μ κ ω ε) (caller : ℕ) (call : CommitCall μ κ ω ε)
    (phase : CommitPhase κ ω ε) : CommitSystem μ κ ω ε :=
  { system with calls := system.calls.set caller { call with phase := phase } }

/-- After a lost race: read again, or give up. -/
def CommitCall.retried (call : CommitCall μ κ ω ε) : CommitCall μ κ ω ε :=
  if call.attempt < call.maxAttempts then
    { call with attempt := call.attempt + 1, phase := .reading }
  else { call with phase := .finished (.conflict call.maxAttempts) }

section Machine

variable (exec : μ → κ → DomainState → ω → Option (Except ε DomainState) × ω)

section

variable (system : CommitSystem μ κ ω ε)

/-- `const result = mutate(state)` on the snapshot. -/
def runMutation (caller : ℕ) (call : CommitCall μ κ ω ε) (snapshot : Cell DomainState)
    (readings : κ) : CommitSystem μ κ ω ε :=
  let answer := exec call.mutation readings snapshot.state system.side
  { system.move caller call (match answer.1 with
      | none => .finished .thrown
      | some (.error code) => .finished (.rejected code call.attempt)
      | some (.ok next) => .installing snapshot readings system.side next) with
    side := answer.2 }

/-- `if (await cell.compareAndSet(version, result.value))` -/
def tryInstall (caller : ℕ) (call : CommitCall μ κ ω ε) (snapshot : Cell DomainState) (readings : κ)
    (side : ω) (next : DomainState) : CommitSystem μ κ ω ε :=
  match system.cell.compareAndSet snapshot.version next with
  | some cell =>
    { system.move caller call (.finished (.ok next call.attempt)) with
      cell := cell
      log := system.log ++ [⟨caller, call.mutation, readings, side⟩] }
  | none => { system with calls := system.calls.set caller call.retried }

/-- **One step.** A step that its call is not ready for does nothing. -/
def commitStep : CommitStep μ κ → CommitSystem μ κ ω ε
  | .start caller mutation maxAttempts =>
    match system.calls.get caller with
    | some _ => system
    | none =>
      let attempts := (max 1 (maxAttempts.getD defaultCommitAttempts)).toNat
      { system with calls := system.calls.set caller ⟨mutation, attempts, 1, .reading⟩ }
  | .read caller =>
    match system.calls.get caller with
    | none => system
    | some call =>
      match call.phase with
      | .reading => system.move caller call (.holding system.cell)
      | _ => system
  | .mutate caller readings =>
    match system.calls.get caller with
    | none => system
    | some call =>
      match call.phase with
      | .holding snapshot => runMutation exec system caller call snapshot readings
      | _ => system
  | .compareAndSet caller =>
    match system.calls.get caller with
    | none => system
    | some call =>
      match call.phase with
      | .installing snapshot readings side next =>
        tryInstall system caller call snapshot readings side next
      | _ => system

end

/-- What a committed call does to a state. -/
def Commit.apply (state : DomainState) (commit : Commit μ κ ω) : Option DomainState :=
  match (exec commit.mutation commit.readings state commit.side).1 with
  | some (.ok next) => some next
  | _ => none

/-! ### What a step can do -/

/-- The steps that change something. -/
inductive CommitEffect (system : CommitSystem μ κ ω ε) :
    CommitStep μ κ → CommitSystem μ κ ω ε → Prop
  | idle (step : CommitStep μ κ) : CommitEffect system step system
  | started {caller : ℕ} (mutation : μ) (maxAttempts : Option ℤ) (attempts : ℕ)
      (hcall : system.calls.get caller = none) :
      CommitEffect system (.start caller mutation maxAttempts)
        { system with calls := system.calls.set caller ⟨mutation, attempts, 1, .reading⟩ }
  | fetched {caller : ℕ} {call : CommitCall μ κ ω ε} (hcall : system.calls.get caller = some call)
      (hphase : call.phase = .reading) :
      CommitEffect system (.read caller) (system.move caller call (.holding system.cell))
  | ran {caller : ℕ} {call : CommitCall μ κ ω ε} {snapshot : Cell DomainState} (readings : κ)
      (hcall : system.calls.get caller = some call) (hphase : call.phase = .holding snapshot) :
      CommitEffect system (.mutate caller readings)
        (runMutation exec system caller call snapshot readings)
  | installed {caller : ℕ} {call : CommitCall μ κ ω ε} {snapshot : Cell DomainState} {readings : κ}
      {side : ω} {next : DomainState} {cell : Cell DomainState}
      (hcall : system.calls.get caller = some call)
      (hphase : call.phase = .installing snapshot readings side next)
      (hset : system.cell.compareAndSet snapshot.version next = some cell) :
      CommitEffect system (.compareAndSet caller)
        { system.move caller call (.finished (.ok next call.attempt)) with
          cell := cell
          log := system.log ++ [⟨caller, call.mutation, readings, side⟩] }
  | lost {caller : ℕ} {call : CommitCall μ κ ω ε} {snapshot : Cell DomainState} {readings : κ}
      {side : ω} {next : DomainState} (hcall : system.calls.get caller = some call)
      (hphase : call.phase = .installing snapshot readings side next)
      (hset : system.cell.compareAndSet snapshot.version next = none) :
      CommitEffect system (.compareAndSet caller)
        { system with calls := system.calls.set caller call.retried }

/-- **Every step is one of these.** -/
theorem commitStep_effect (system : CommitSystem μ κ ω ε) (step : CommitStep μ κ) :
    CommitEffect exec system step (commitStep exec system step) := by
  cases step with
  | start caller mutation maxAttempts =>
    rw [commitStep]
    split
    · exact .idle _
    · next hcall => exact .started mutation maxAttempts _ hcall
  | read caller =>
    rw [commitStep]
    split
    · exact .idle _
    next call hcall =>
    split
    · next hphase => exact .fetched hcall hphase
    · exact .idle _
  | mutate caller readings =>
    rw [commitStep]
    split
    · exact .idle _
    next call hcall =>
    split
    · next snapshot hphase => exact .ran readings hcall hphase
    · exact .idle _
  | compareAndSet caller =>
    rw [commitStep]
    split
    · exact .idle _
    next call hcall =>
    split
    · next snapshot readings side next hphase =>
      rw [tryInstall]
      split
      · next cell hset => exact .installed hcall hphase hset
      · next hset => exact .lost hcall hphase hset
    · exact .idle _

/-! ### Serializability -/

/-- The call returned `ok`. -/
def CommitCall.returned (call : CommitCall μ κ ω ε) : Bool :=
  match call.phase with
  | .finished (.ok _ _) => true
  | _ => false

/-- **A system whose history is serial.** -/
structure Serialized (initial : DomainState) (system : CommitSystem μ κ ω ε) : Prop where
  /-- The committed mutations, one after the other, give the state, and the version counts them. -/
  serial : Serial (Commit.apply exec) ⟨0, initial⟩ system.log system.cell
  /-- The log lists exactly the calls that returned `ok`. -/
  returned : ∀ caller, caller ∈ system.log.map Commit.caller ↔
    ∃ call, system.calls.get caller = some call ∧ call.returned = true
  /-- Each of them once. -/
  once : (system.log.map Commit.caller).Nodup
  /-- Each with its own mutation. -/
  mutations : ∀ commit ∈ system.log, ∃ call, system.calls.get commit.caller = some call ∧
    commit.mutation = call.mutation

/-- What a call in progress knows about the cell. -/
def CommitCall.Sound (cell : Cell DomainState) (caller : ℕ) (call : CommitCall μ κ ω ε) : Prop :=
  match call.phase with
  | .holding snapshot => Behind snapshot cell
  | .installing snapshot readings side next => Behind snapshot cell ∧
      Commit.apply exec snapshot.state ⟨caller, call.mutation, readings, side⟩ = some next
  | _ => True

/-- The invariant: serial so far, and every call in progress knows what it needs. -/
structure Coherent (initial : DomainState) (system : CommitSystem μ κ ω ε) : Prop where
  serialized : Serialized exec initial system
  sound : ∀ caller call, system.calls.get caller = some call → call.Sound exec system.cell caller

/-- A cell that nobody has called is coherent, with an empty log. -/
theorem coherent_init (initial : DomainState) (side : ω) :
    Coherent exec initial (CommitSystem.init initial side : CommitSystem μ κ ω ε) where
  serialized := ⟨Serial.nil _ _, fun _ ↦ ⟨nofun, fun ⟨_, h, _⟩ ↦ nomatch h⟩, nodup_nil, nofun⟩
  sound _ _ h := nomatch h

variable {exec} {initial : DomainState} {system : CommitSystem μ κ ω ε}

/-- A step that commits nothing: one call changes, and it has returned neither before nor after. -/
theorem Coherent.of_quiet (h : Coherent exec initial system) (caller : ℕ)
    (call : CommitCall μ κ ω ε)
    (hold : ∀ old, system.calls.get caller = some old →
      old.mutation = call.mutation ∧ old.returned = false) (hnew : call.returned = false)
    (hsound : call.Sound exec system.cell caller) (side : ω) :
    Coherent exec initial { system with calls := system.calls.set caller call, side := side } := by
  have hmem : caller ∉ system.log.map Commit.caller := by
    intro hmem
    obtain ⟨old, hget, hreturned⟩ := (h.serialized.returned caller).1 hmem
    exact absurd hreturned (by rw [(hold old hget).2]; nofun)
  refine ⟨⟨h.serialized.serial, fun other ↦ ?_, h.serialized.once, fun commit hcommit ↦ ?_⟩, ?_⟩
  · rw [h.serialized.returned other]
    simp only [get_set]
    split
    · next heq =>
      subst heq
      constructor
      · rintro ⟨old, hget, hreturned⟩
        exact absurd hreturned (by rw [(hold old hget).2]; nofun)
      · rintro ⟨new, hget, hreturned⟩
        rw [← Option.some.inj hget, hnew] at hreturned
        cases hreturned
    · exact Iff.rfl
  · obtain ⟨old, hget, hmutation⟩ := h.serialized.mutations commit hcommit
    have hne : caller ≠ commit.caller := by
      rintro rfl
      exact hmem (mem_map_of_mem hcommit)
    refine ⟨old, ?_, hmutation⟩
    simp only [get_set]
    rw [if_neg hne]
    exact hget
  · exact forall_get_set h.sound hsound

variable {call : CommitCall μ κ ω ε}

theorem CommitCall.Sound.compareAndSet {cell next : Cell DomainState} {caller : ℕ}
    (h : call.Sound exec cell caller) {expectedVersion : ℕ} {state : DomainState}
    (hset : cell.compareAndSet expectedVersion state = some next) :
    call.Sound exec next caller := by
  rw [CommitCall.Sound] at h ⊢
  split
  · next hphase =>
    simp only [hphase] at h
    exact h.compareAndSet hset
  · next hphase =>
    simp only [hphase] at h
    exact ⟨h.1.compareAndSet hset, h.2⟩
  · trivial

/-- A compare-and-set that succeeds puts its call at the end of the log. -/
theorem coherent_installed (h : Coherent exec initial system) {caller : ℕ}
    {snapshot cell : Cell DomainState} {readings : κ} {side : ω} {next : DomainState}
    (hcall : system.calls.get caller = some call)
    (hphase : call.phase = .installing snapshot readings side next)
    (hset : system.cell.compareAndSet snapshot.version next = some cell) :
    Coherent exec initial
      { system.move caller call (.finished (.ok next call.attempt)) with
        cell := cell
        log := system.log ++ [⟨caller, call.mutation, readings, side⟩] } := by
  have hsound := h.sound caller call hcall
  simp only [CommitCall.Sound, hphase] at hsound
  have hmem : caller ∉ system.log.map Commit.caller := by
    intro hmem
    obtain ⟨old, hget, hreturned⟩ := (h.serialized.returned caller).1 hmem
    obtain rfl : call = old := Option.mem_unique hcall hget
    simp [CommitCall.returned, hphase] at hreturned
  refine ⟨⟨h.serialized.serial.concat hsound.1 hsound.2 hset, fun other ↦ ?_, ?_, ?_⟩, ?_⟩
  · rw [map_append, mem_append, h.serialized.returned other]
    simp only [CommitSystem.move, get_set, map_cons, map_nil, mem_singleton]
    split
    · next heq =>
      exact ⟨fun _ ↦ ⟨_, rfl, rfl⟩, fun _ ↦ .inr heq.symm⟩
    · next hne =>
      exact ⟨fun hor ↦ hor.resolve_right (Ne.symm hne), .inl⟩
  · rw [map_append]
    exact h.serialized.once.append (nodup_singleton _) (disjoint_singleton.2 hmem)
  · intro commit hcommit
    simp only [CommitSystem.move, get_set]
    rcases mem_append.1 hcommit with hearlier | hlatest
    · obtain ⟨old, hget, hmutation⟩ := h.serialized.mutations commit hearlier
      have hne : caller ≠ commit.caller := by
        rintro rfl
        exact hmem (mem_map_of_mem hearlier)
      exact ⟨old, by rw [if_neg hne]; exact hget, hmutation⟩
    · rw [mem_singleton.1 hlatest]
      exact ⟨_, if_pos rfl, rfl⟩
  · exact forall_get_set (fun other new hget ↦ (h.sound other new hget).compareAndSet hset)
      trivial

/-- **Every step keeps the history serial.** -/
theorem coherent_step (h : Coherent exec initial system) (step : CommitStep μ κ) :
    Coherent exec initial (commitStep exec system step) := by
  have hold : ∀ caller (call : CommitCall μ κ ω ε), system.calls.get caller = some call →
      call.returned = false → ∀ old, system.calls.get caller = some old →
      old.mutation = call.mutation ∧ old.returned = false := by
    intro caller call hcall hreturned old hget
    obtain rfl : call = old := Option.mem_unique hcall hget
    exact ⟨rfl, hreturned⟩
  have heffect := commitStep_effect exec system step
  generalize commitStep exec system step = after at heffect ⊢
  cases heffect with
  | idle => exact h
  | @started caller mutation maxAttempts attempts hcall =>
    refine h.of_quiet caller ⟨mutation, attempts, 1, .reading⟩ (fun old hget ↦ ?_) rfl trivial
      system.side
    rw [hcall] at hget
    cases hget
  | @fetched caller call hcall hphase =>
    exact h.of_quiet caller { call with phase := .holding system.cell }
      (hold caller call hcall (by simp [CommitCall.returned, hphase])) rfl
      (Behind.refl system.cell) system.side
  | @ran caller call snapshot readings hcall hphase =>
    have hsound := h.sound caller call hcall
    simp only [CommitCall.Sound, hphase] at hsound
    have hreturned : call.returned = false := by simp [CommitCall.returned, hphase]
    rw [runMutation]
    cases hanswer : (exec call.mutation readings snapshot.state system.side).1 with
    | none =>
      exact h.of_quiet caller { call with phase := .finished .thrown }
        (hold caller call hcall hreturned) rfl trivial _
    | some answer =>
      cases answer with
      | error code =>
        exact h.of_quiet caller { call with phase := .finished (.rejected code call.attempt) }
          (hold caller call hcall hreturned) rfl trivial _
      | ok next =>
        refine h.of_quiet caller
          { call with phase := .installing snapshot readings system.side next }
          (hold caller call hcall hreturned) rfl ⟨hsound, ?_⟩ _
        rw [Commit.apply, hanswer]
  | installed hcall hphase hset => exact coherent_installed h hcall hphase hset
  | @lost caller call snapshot readings side next hcall hphase hset =>
    refine h.of_quiet caller call.retried ?_ ?_ ?_ system.side
    · intro old hget
      obtain ⟨hmutation, hreturned⟩ :=
        hold caller call hcall (by simp [CommitCall.returned, hphase]) old hget
      refine ⟨hmutation.trans ?_, hreturned⟩
      rw [CommitCall.retried]
      split <;> rfl
    · rw [CommitCall.retried]
      split <;> rfl
    · rw [CommitCall.retried]
      split <;> trivial

/-- The log only grows, and a step that changes the cell puts its caller into the log. -/
theorem log_step (system : CommitSystem μ κ ω ε) (step : CommitStep μ κ) :
    system.log <+: (commitStep exec system step).log ∧
    ((commitStep exec system step).cell = system.cell ∨
      step.caller ∈ (commitStep exec system step).log.map Commit.caller) := by
  have heffect := commitStep_effect exec system step
  generalize commitStep exec system step = after at heffect ⊢
  cases heffect with
  | @installed caller call snapshot readings side next cell hcall hphase hset =>
    refine ⟨prefix_append _ _, .inr ?_⟩
    rw [map_append]
    exact mem_append_right _ mem_cons_self
  | _ => exact ⟨prefix_refl _, .inl rfl⟩

/-- What was committed stays committed, in the same order. -/
theorem log_run (system : CommitSystem μ κ ω ε) (steps : List (CommitStep μ κ)) :
    system.log <+: (run (commitStep exec) system steps).log := by
  induction steps generalizing system with
  | nil => exact prefix_refl _
  | cons step steps ih => exact (log_step system step).1.trans (ih _)

/-- **Serializability**: from the empty system, every run has a serial history. -/
theorem coherent_run (initial : DomainState) (side : ω) (steps : List (CommitStep μ κ)) :
    Coherent exec initial (run (commitStep exec) (CommitSystem.init initial side) steps) :=
  run_invariant (Coherent exec initial) (fun _ step h ↦ coherent_step h step)
    (coherent_init exec initial side) steps

/-- **A call that does not return `ok` changes nothing**, in any of its steps. -/
theorem cell_eq_of_not_returned (initial : DomainState) (side : ω)
    {before after : List (CommitStep μ κ)} {step : CommitStep μ κ}
    (h : ∀ call, (run (commitStep exec) (CommitSystem.init initial side)
      (before ++ step :: after)).calls.get step.caller = some call → call.returned = false) :
    (commitStep exec (run (commitStep exec) (CommitSystem.init initial side) before) step).cell =
      (run (commitStep exec) (CommitSystem.init initial side) before).cell := by
  have hfinal : Serialized exec initial _ :=
    (coherent_run initial side (before ++ step :: after)).serialized
  rw [run_append, run_cons] at h hfinal
  refine (log_step _ step).2.resolve_right fun hmem ↦ ?_
  have hlog : step.caller ∈ (run (commitStep exec) (commitStep exec
      (run (commitStep exec) (CommitSystem.init initial side) before) step) after).log.map
      Commit.caller := ((log_run _ after).map Commit.caller).subset hmem
  obtain ⟨call, hcall, hreturned⟩ := (hfinal.returned _).1 hlog
  rw [h call hcall] at hreturned
  cases hreturned

end Machine

/-! ### Commits of the ticket mutations -/

/-- A mutation that a request commits, before its readings of the clock. -/
inductive TicketRequest
  | issue (params : IssueTicketParams)
  | transfer (params : TransferTicketParams) (riskContext : TransferRiskContext)
  | redeem (params : RedeemTicketParams)

/-- The call that a request makes at this reading of the clock. -/
def TicketRequest.at (clock : ℤ) : TicketRequest → TicketCall
  | .issue params => .issue params clock
  | .transfer params riskContext => .transfer params riskContext clock
  | .redeem params => .redeem params

/-- A request as a mutation: it throws nothing and has no store of its own. -/
def runTicketRequest (request : TicketRequest) (clock : ℤ) (state : DomainState) (side : Unit) :
    Option (Except InvariantViolation DomainState) × Unit :=
  (some ((request.at clock).apply state), side)

/-- The system of commits of ticket mutations. -/
abbrev TicketCommits := CommitSystem TicketRequest ℤ Unit InvariantViolation

/-- No event has issued more than it holds. -/
def WithinCapacity (state : DomainState) : Prop :=
  ∀ id event, state.events.get id = some event → event.totalCapacity.less event.issuedCount = false

/-- **Commits are serializable and never oversell.** In every interleaving of commits from a state
within its capacities, the committed mutations applied one after the other give the state of the
cell, the version counts them, they are those of the calls that returned `ok`, a call that did not
has changed nothing in any of its steps, and every event is within its capacity. -/
theorem ticket_commits_serialized {initial : DomainState} (h : WithinCapacity initial)
    (steps : List (CommitStep TicketRequest ℤ)) :
    let final : TicketCommits := run (commitStep runTicketRequest) (.init initial ()) steps
    Serialized runTicketRequest initial final ∧
    (∀ before step after, steps = before ++ step :: after →
      (∀ call, final.calls.get step.caller = some call → call.returned = false) →
      (commitStep runTicketRequest
        (run (commitStep runTicketRequest) (.init initial () : TicketCommits) before) step).cell =
        (run (commitStep runTicketRequest) (.init initial () : TicketCommits) before).cell) ∧
    WithinCapacity final.cell.state := by
  intro final
  have hserial : Serialized runTicketRequest initial final :=
    (coherent_run initial () steps).serialized
  refine ⟨hserial, ?_, hserial.serial.invariant (fun s commit s' hs happly ↦ ?_) h⟩
  · rintro before step after rfl hreturned
    exact cell_eq_of_not_returned initial () hreturned
  rw [Commit.apply, runTicketRequest] at happly
  split at happly
  · next next heq =>
    cases happly
    intro id e he
    rcases ticketStep_cases s (commit.mutation.at commit.readings) with
      hstep | ⟨params, clock, event, -, hissue, hstep⟩ |
      ⟨params, context, clock, ticket, -, htransfer⟩ | ⟨params, ticket, -, -, hstep⟩
    · rw [ticketStep_of_ok (Option.some.inj heq)] at hstep
      rw [hstep] at he
      exact hs id e he
    · rw [ticketStep_of_ok (Option.some.inj heq)] at hstep
      rw [hstep] at he
      obtain ⟨-, rfl⟩ | ⟨-, he⟩ := get_set_eq_some he
      · exact hissue.room
      · exact hs id e he
    · rw [ticketStep_of_ok (Option.some.inj heq)] at htransfer
      rw [htransfer.events] at he
      exact hs id e he
    · rw [ticketStep_of_ok (Option.some.inj heq)] at hstep
      rw [hstep] at he
      exact hs id e he
  · cases happly

/-- Two buyers read the same state. The first to compare and set wins; the other loses the race,
reads again and commits on top of it. -/
def buyersRace : List (CommitStep TicketRequest ℤ) :=
  [.start 1 (.issue (ticketFor "t1" "ALICE")) none, .start 2 (.issue (ticketFor "t2" "BOB")) none,
    .read 1, .read 2, .mutate 1 10, .mutate 2 11, .compareAndSet 1, .compareAndSet 2, .read 2,
    .mutate 2 12, .compareAndSet 2]

/-- The race ends with both tickets issued, at version two. -/
theorem ticket_commits_serialized_race :
    WithinCapacity galaState ∧
    (run (commitStep runTicketRequest) (.init galaState () : TicketCommits)
      buyersRace).cell.version = 2 ∧
    WithinCapacity (run (commitStep runTicketRequest) (.init galaState () : TicketCommits)
      buyersRace).cell.state := by
  have hgala : WithinCapacity galaState := by
    intro id event h
    obtain ⟨-, rfl⟩ | ⟨-, h⟩ := get_set_eq_some h
    · decide +kernel
    · cases h
  exact ⟨hgala, by decide +kernel, (ticket_commits_serialized hgala buyersRace).2.2⟩

end Utix.Tickets
