import Utix.Lib.Position
import Utix.Replay.Effects

/-!
# A resumed replay is one replay

One runner replays a projection from a fixed log, in runs that may stop at any point: the source or
the store or the reducer throws, the lock is lost, the process dies, an operator asks for a build up
to some sequence only. Whatever happened before, a run goes on from what the slot says.

What a run has folded in is described by its checkpoint alone: `Folded` says that the state is the
fold of the events up to the checkpoint, and the counter the number of them that the projection
consumes. Each event of a batch is the first one after the checkpoint, so `folded_step` is all there
is to an event. Whatever is written to the slot is `Folded`; a run that comes to the end of the log
has folded in the whole log.

The counter counts consumed events: events of other types move the checkpoint and are otherwise
ignored. The checkpoint 0 stands for nothing, so sequence numbers are positive. Under the policy
`skip` events are left out of the fold on purpose, so the policy here is `halt`.

Which types a projection consumes is looked up in a plain object. An event whose type is the name of
a member of `Object.prototype` is found there without being listed, and is reduced and counted;
`IsLog` leaves such names out, and `eventVersions` is the function of the listed types.
-/

namespace Utix.Replay

open Js Lib List ReplayRun

variable {S P : Type}

/-! ### The fold -/

section

variable (definition : ProjectionDefinition S P)

/-- The projection lists the type of the event. -/
def ProjectionDefinition.consumes (event : ReplayEvent P) :
    Bool := (definition.eventVersions event.type).isSome

/-- One event, upcast and reduced; other types are ignored. -/
def project (registry : UpcasterRegistry P) (state : S) (event : ReplayEvent P) : Option S :=
  match definition.eventVersions event.type with
  | none => some state
  | some targetVersion =>
    match upcast registry event targetVersion with
    | .ok lifted => definition.apply state lifted
    | .error _ => none

/-- **The left fold of the reducer over the upcast events.** -/
def projectAll (registry : UpcasterRegistry P) (events : List (ReplayEvent P)) : Option S :=
  events.foldlM (project definition registry) definition.initial

end

/-- The sequence number of the last event; 0 means none. -/
def lastSequence (log : List (ReplayEvent P)) : ℚ :=
  (log.getLast?.map ReplayEvent.sequence).getD 0

/-- The state is the fold of the events up to the checkpoint, and the counter the number of the
consumed ones among them. -/
structure Folded (definition : ProjectionDefinition S P) (registry : UpcasterRegistry P)
    (log : List (ReplayEvent P)) (checkpoint : ℚ) (state : S) (eventsApplied : ℕ) : Prop where
  state : projectAll definition registry (upTo ReplayEvent.sequence checkpoint log) = some state
  applied : eventsApplied = (upTo ReplayEvent.sequence checkpoint log).countP definition.consumes
  reached : checkpoint = 0 ∨ ∃ event ∈ log, event.sequence = checkpoint

/-- A log: positive, strictly increasing sequence numbers, and no type that the lookup in
`eventVersions` finds in every object. -/
structure IsLog (log : List (ReplayEvent P)) : Prop where
  types : ∀ event ∈ log, event.type ∉ prototypeKeys
  sorted : log.Pairwise fun a b ↦ a.sequence < b.sequence
  pos : ∀ event ∈ log, 0 < event.sequence

variable {event : ReplayEvent P} {state : S} {definition : ProjectionDefinition S P}
  {registry : UpcasterRegistry P} {log rest : List (ReplayEvent P)} {checkpoint : ℚ}

section

/-- A blank slot has folded in nothing. -/
theorem folded_blank (hlog : IsLog log) :
    Folded definition registry log 0 definition.initial 0 := by
  have hnil : upTo ReplayEvent.sequence 0 log = [] := upTo_eq_nil hlog.pos
  exact ⟨by rw [hnil]; rfl, by rw [hnil]; rfl, .inl rfl⟩

/-- **The next event of the log is folded in.** -/
theorem folded_step (hlog : IsLog log) {state' : S} {n m : ℕ}
    (h : Folded definition registry log checkpoint state n)
    (hnext : after ReplayEvent.sequence checkpoint log = event :: rest)
    (hstep : project definition registry state event = some state')
    (hcount : m = n + if definition.consumes event then 1 else 0) :
    Folded definition registry log event.sequence state' m := by
  obtain ⟨hupTo, -⟩ := of_after_eq_cons hlog.sorted hnext
  refine ⟨?_, ?_, .inr ⟨event, (mem_after.1 (hnext ▸ mem_cons_self)).1, rfl⟩⟩
  · have hstate := h.state
    rw [projectAll] at hstate
    rw [hupTo, projectAll, foldlM_append, hstate]
    simp [hstep]
  · rw [hupTo, countP_append, ← h.applied, hcount, countP_singleton]

/-- **At the end of the log, everything is folded in.** -/
theorem Folded.whole (hlog : IsLog log) {n : ℕ}
    (h : Folded definition registry log checkpoint state n)
    (hend : after ReplayEvent.sequence checkpoint log = []) :
    projectAll definition registry log = some state ∧ n = log.countP definition.consumes ∧
      checkpoint = lastSequence log := by
  have hwhole := upTo_eq_self_of_after hlog.sorted hend
  have hstate := h.state
  have happlied := h.applied
  rw [hwhole] at hstate happlied
  refine ⟨hstate, happlied, ?_⟩
  have hle : ∀ event ∈ log, event.sequence ≤ checkpoint := fun event hevent ↦ by
    have hmem : event ∈ upTo ReplayEvent.sequence checkpoint log := hwhole.symm ▸ hevent
    simpa [upTo, hevent] using hmem
  rcases eq_nil_or_concat log with rfl | ⟨front, last, rfl⟩
  · rcases h.reached with hzero | ⟨event, hevent, -⟩
    · exact hzero
    · cases hevent
  · rw [concat_eq_append] at *
    have hlast : lastSequence (front ++ [last]) = last.sequence := by simp [lastSequence]
    rw [hlast]
    refine le_antisymm ?_ (hle last (by simp))
    rcases h.reached with hzero | ⟨event, hevent, heq⟩
    · exact hzero ▸ (hlog.pos last (by simp)).le
    rw [← heq]
    rcases mem_append.1 hevent with hfront | hsingle
    · exact ((pairwise_append.1 hlog.sorted).2.2 event hfront last (by simp)).le
    · rw [mem_singleton.1 hsingle]

end

/-! ### A batch -/

/-- A run of the projection under the policy `halt` whose variables are folded. -/
structure Faithful (definition : ProjectionDefinition S P) (registry : UpcasterRegistry P)
    (log : List (ReplayEvent P)) (run : ReplayRun S P) : Prop where
  projection : run.definition = definition
  policy : run.opts.poisonPolicy = .halt
  batchSize : 1 ≤ run.opts.batchSize
  folded : Folded definition registry log run.checkpoint run.state run.eventsApplied

section

variable {run : ReplayRun S P}

theorem poison_halts (h : run.opts.poisonPolicy = .halt) (event : ReplayEvent P) :
    run.poison event = .halted run .poisonEvent := if_pos h

/-- One event: it is folded in, or the run keeps what it has. -/
theorem faithful_step (hlog : IsLog log) (h : Faithful definition registry log run)
    (throws : ReplayEvent P → Bool)
    (hnext : after ReplayEvent.sequence run.checkpoint log = event :: rest) :
    Faithful definition registry log (run.step registry throws event).run ∧
      ∀ run', run.step registry throws event = .next run' → run'.checkpoint = event.sequence := by
  obtain ⟨hdef, hpolicy, hsize, hfolded⟩ := h
  rw [step]
  split
  · exact ⟨⟨hdef, hpolicy, hsize, hfolded⟩, by simp⟩
  split
  · exact ⟨⟨hdef, hpolicy, hsize, hfolded⟩, by simp⟩
  simp only
  split
  · next hignored =>
    have hconsumes : definition.consumes event = false := by
      rw [ProjectionDefinition.consumes, ← hdef, hignored]
      rfl
    have hproject : project definition registry run.state event = some run.state := by
      rw [project, ← hdef, hignored]
    refine ⟨⟨hdef, hpolicy, hsize, folded_step hlog hfolded hnext hproject ?_⟩, ?_⟩
    · simp [hconsumes, EventResult.run]
    · rintro run' hrun
      rw [← EventResult.next.inj hrun]
  · next targetVersion htarget =>
    split
    · exact ⟨⟨hdef, hpolicy, hsize, hfolded⟩, by simp⟩
    · rw [poison_halts]
      · exact ⟨⟨hdef, hpolicy, hsize, hfolded⟩, by simp⟩
      · exact hpolicy
    · next lifted hlifted =>
      split
      · rw [poison_halts]
        · exact ⟨⟨hdef, hpolicy, hsize, hfolded⟩, by simp⟩
        · exact hpolicy
      · next state hstate =>
        have hconsumes : definition.consumes event = true := by
          rw [ProjectionDefinition.consumes, ← hdef, htarget]
          rfl
        have happly : run.definition.apply run.state lifted = some state := by
          split at hstate
          · cases hstate
          · exact hstate
        have hproject : project definition registry run.state event = some state := by
          rw [project, ← hdef, htarget]
          simp only [hlifted, happly]
        refine ⟨⟨hdef, hpolicy, hsize, folded_step hlog hfolded hnext hproject ?_⟩, ?_⟩
        · simp [hconsumes, EventResult.run]
        · rintro run' hrun
          rw [← EventResult.next.inj hrun]

/-- **A batch**: the events right after the checkpoint. -/
theorem faithful_steps (hlog : IsLog log) (throws : ReplayEvent P → Bool)
    {batch : List (ReplayEvent P)} (h : Faithful definition registry log run)
    (hbatch : batch <+: after ReplayEvent.sequence run.checkpoint log) :
    Faithful definition registry log (steps registry throws run batch).run := by
  induction batch generalizing run with
  | nil => exact h
  | cons event batch ih =>
    obtain ⟨rest, hrest⟩ := hbatch
    rw [cons_append] at hrest
    obtain ⟨hfaithful, hcheckpoint⟩ := faithful_step hlog h throws hrest.symm
    rw [steps]
    split
    · next run' heq =>
      rw [heq] at hfaithful
      have hnext : batch <+: after ReplayEvent.sequence run'.checkpoint log := by
        rw [hcheckpoint run' heq, (of_after_eq_cons hlog.sorted hrest.symm).2]
        exact prefix_append batch rest
      exact ih hfaithful hnext
    · exact hfaithful

end

/-! ### Runs that go to the end of the log

Without `untilSequence` a run reports success only after an empty answer of the source. -/

variable {faults : Faults} {store : ProjectionStore S} {runId : JsString}

section

variable {run : ReplayRun S P} {starting : Bool} {now : ℤ}

/-- The stretch does not end with a report. -/
def Unfinished (result : ProjectionStore S × Progress S P) : Prop :=
  ∀ report, result.2 ≠ .ended (.finished report)

theorem unfinished_finally {outcome : Outcome S} (h : ∀ report, outcome ≠ .finished report) :
    Unfinished (run.finally faults store outcome) := by
  intro report
  rw [ReplayRun.finally]
  split
  · simpa using h report
  · split
    · simp
    · simpa using h report

/-- A run that has lost its lock has not finished. -/
theorem unfinished_lostLock : Unfinished (run.lostLock faults store) := by
  rw [lostLock]
  split <;> exact unfinished_finally (by simp)

theorem unfinished_halt (code : ReplayErrorCode) :
    Unfinished (run.halt starting now faults store code) := by
  rw [halt]
  split
  · split
    · exact unfinished_finally (by simp)
    · exact unfinished_finally (by simp)
    · split <;> exact unfinished_finally (by simp)
  · exact unfinished_finally (by simp)

section

variable (h : run.opts.untilSequence = none)
include h

/-- Nor has one that waits for a batch. -/
theorem unfinished_loop : Unfinished (run.loop starting now faults store) := by
  rw [loop]
  split
  · exact unfinished_finally (by simp)
  · exact unfinished_lostLock
  · rw [h]
    simp [Unfinished]

theorem unfinished_commit : Unfinished (run.commit starting now faults store false) := by
  rw [commit]
  split
  · exact unfinished_finally (by simp)
  · exact unfinished_lostLock
  · split
    · exact unfinished_finally (by simp)
    · exact unfinished_loop h

theorem unfinished_begin : Unfinished (run.begin now faults store) := by
  rw [begin]
  split
  · exact unfinished_finally (by simp)
  · exact unfinished_lostLock
  · split
    · exact unfinished_finally (by simp)
    · exact unfinished_loop h

end

/-- Nor does one finish before it has read, unless it was asked for less. -/
theorem unfinished_startReplay {role : Workers.Role} {options : ReplayOptions}
    (h : options.untilSequence = none) :
    Unfinished (startReplay definition role options runId now faults store) := by
  have henter : ∀ slot, Unfinished (startReplay.enter now faults store
      (.fresh definition options.resolve runId store.active slot)) := fun slot ↦ by
    rw [startReplay.enter]
    split
    · exact unfinished_begin h
    split
    · simp [Unfinished]
    · split
      · simp [Unfinished]
      · exact unfinished_begin h
  rw [startReplay]
  split
  · simp [Unfinished]
  split
  · simp [Unfinished]
  split
  · simp [Unfinished]
  split
  · simp [Unfinished]
  split
  · exact henter _
  split
  · simp [Unfinished]
  · split
    · simp [Unfinished]
    · exact henter _

theorem steps_ne_stop (h : run.opts.untilSequence = none) (registry : UpcasterRegistry P)
    (throws : ReplayEvent P → Bool) (batch : List (ReplayEvent P)) (run' : ReplayRun S P) :
    steps registry throws run batch ≠ .stop run' := by
  induction batch generalizing run with
  | nil => simp [steps]
  | cons event batch ih =>
    have hextends := extends_step run registry throws event
    rw [steps]
    split
    · next run'' heq =>
      rw [heq] at hextends
      exact ih ((congrArg ResolvedOptions.untilSequence hextends.opts).trans h)
    · have hpoison : ∀ read : ReplayRun S P, read.poison event ≠ .stop run' := fun read ↦ by
        rw [poison]
        split
        · simp
        · simp only
          split <;> simp
      rw [step, h]
      simp only [Option.any_none, Bool.false_eq_true, if_false]
      split
      · simp
      split
      · simp
      split
      · simp
      · exact hpoison _
      · split
        · exact hpoison _
        · simp

end

/-! ### A single runner -/

/-- The store, the run in flight, and how a run ended in the last call, if one did. -/
structure Session (S P : Type) where
  store : ProjectionStore S
  run : Option (ReplayRun S P)
  last : Option (ResolvedOptions × Outcome S)

/-- What happens to a single runner: it starts a run; the source answers with at most `size + 1`
events, or fails; the process dies; somebody else takes or gives back the lock, or moves the
pointer. -/
inductive ReplayCall (P : Type)
  | start (role : Workers.Role) (options : ReplayOptions) (runId : JsString) (now : ℤ)
      (faults : Faults)
  | read (size : ℕ) (throws : ReplayEvent P → Bool) (now : ℤ) (faults : Faults)
  | readFailed (now : ℤ) (faults : Faults)
  | crash
  | environment (lock : Option ReplayLock) (active : Option ActivePointer)

/-- The session after a stretch. -/
def Session.ofResult (opts : ResolvedOptions) :
    ProjectionStore S × Progress S P → Session S P
  | (store, .waiting run) => ⟨store, some run, none⟩
  | (store, .ended outcome) => ⟨store, none, some (opts, outcome)⟩

/-- `source.read(checkpoint, batchSize)`: at least one event, if there is one after the
checkpoint. -/
def readLog (log : List (ReplayEvent P)) (run : ReplayRun S P) (size : ℕ) : List (ReplayEvent P) :=
  (after ReplayEvent.sequence run.checkpoint log).take (min (size + 1) run.opts.batchSize.toNat)

/-- One call of the session. -/
def sessionStep (definition : ProjectionDefinition S P) (registry : UpcasterRegistry P)
    (log : List (ReplayEvent P)) (s : Session S P) : ReplayCall P → Session S P
  | .start role options runId now faults =>
    match s.run with
    | some _ => s
    | none =>
      .ofResult options.resolve (startReplay definition role options runId now faults s.store)
  | .read size throws now faults =>
    match s.run with
    | none => s
    | some run =>
      .ofResult run.opts
        (afterRead run now faults s.store registry throws (readLog log run size))
  | .readFailed now faults =>
    match s.run with
    | none => s
    | some run => .ofResult run.opts (Replay.readFailed run now faults s.store)
  | .crash => ⟨s.store, none, none⟩
  | .environment lock active => ⟨{ s.store with lock := lock, active := active }, s.run, none⟩

/-- Every run is started under the policy `halt`. -/
def ReplayCall.Halts : ReplayCall P → Prop
  | .start _ options _ _ _ => options.resolve.poisonPolicy = .halt
  | _ => True

/-- The call is a stretch of a dry run. -/
def ActsDry (s : Session S P) : ReplayCall P → Prop
  | .start _ options _ _ _ => options.resolve.dryRun = true
  | .read _ _ _ _ => ∃ run, s.run = some run ∧ run.opts.dryRun = true
  | .readFailed _ _ => ∃ run, s.run = some run ∧ run.opts.dryRun = true
  | _ => False

/-- The law of resumed replays. -/
structure ResumedLaw (definition : ProjectionDefinition S P) (registry : UpcasterRegistry P)
    (log : List (ReplayEvent P)) (s : Session S P) : Prop where
  /-- Whatever was ever written to the slot is the fold of the events up to its checkpoint. -/
  writes : ∀ write ∈ s.store.writes, write.version = definition.version →
    Folded definition registry log write.slot.checkpoint write.slot.state write.slot.eventsApplied
  /-- So is what the slot holds. -/
  slot : ∀ slot, s.store.slots definition.version = some slot →
    Folded definition registry log slot.checkpoint slot.state slot.eventsApplied
  /-- A completed run has built the fold of the whole log. -/
  built : ∀ opts report, s.last = some (opts, .finished report) → opts.untilSequence = none →
    opts.dryRun = false →
      ∃ state, projectAll definition registry log = some state ∧
        s.store.slots definition.version =
          some ⟨state, lastSequence log, .ready, log.countP definition.consumes⟩
  /-- A completed dry run reports the same state. -/
  reported : ∀ opts report, s.last = some (opts, .finished report) → opts.untilSequence = none →
    opts.dryRun = true → report.state = projectAll definition registry log ∧
      report.state.isSome = true

/-- Nothing has been built yet. -/
structure Session.Unbuilt (s : Session S P) (version : ℤ) : Prop where
  slot : s.store.slots version = none
  writes : s.store.writes = []
  run : s.run = none
  last : s.last = none

/-! ### The invariant -/

variable {before : Option ActivePointer} {s : Session S P} {c : ReplayCall P} {size : ℕ}
  {store' : ProjectionStore S}

section

/-- What is written and held is folded. -/
structure Sound (definition : ProjectionDefinition S P) (registry : UpcasterRegistry P)
    (log : List (ReplayEvent P)) (store : ProjectionStore S) : Prop where
  writes : ∀ write ∈ store.writes, write.version = definition.version →
    Folded definition registry log write.slot.checkpoint write.slot.state write.slot.eventsApplied
  slot : ∀ slot, store.slots definition.version = some slot →
    Folded definition registry log slot.checkpoint slot.state slot.eventsApplied

variable {starting : Bool} {now : ℤ}

/-- One operation of a faithful run. -/
theorem sound_op {run : ReplayRun S P} (hrun : Faithful definition registry log run)
    (h : Sound definition registry log store) (hop : Op run starting now before store store') :
    Sound definition registry log store' := by
  cases hop with
  | acquire => exact ⟨h.writes, h.slot⟩
  | @put status =>
    constructor
    · intro write hwrite hversion
      rcases mem_append.1 hwrite with hwrite | hwrite
      · exact h.writes write hwrite hversion
      · rw [mem_singleton.1 hwrite]
        exact hrun.folded
    · intro slot hslot
      simp only [ProjectionStore.putSlot] at hslot
      by_cases hversion : run.version = definition.version
      · rw [hversion, Function.update_self] at hslot
        rw [← Option.some.inj hslot]
        exact hrun.folded
      · rw [Function.update_of_ne (Ne.symm hversion)] at hslot
        exact h.slot slot hslot
  | activate => exact ⟨h.writes, h.slot⟩
  | release =>
    rw [ProjectionStore.releaseLock]
    split
    · exact ⟨h.writes, h.slot⟩
    · exact h

/-- What a faithful run writes is sound. -/
theorem sound_ops {run : ReplayRun S P} (hrun : Faithful definition registry log run)
    (h : Sound definition registry log store) (hops : Ops run starting now before store store') :
    Sound definition registry log store' := by
  induction hops with
  | refl => exact h
  | tail _ hop ih => exact sound_op hrun ih hop

/-- The store is sound, and so is the run in flight. -/
structure SessionInv (definition : ProjectionDefinition S P) (registry : UpcasterRegistry P)
    (log : List (ReplayEvent P)) (s : Session S P) : Prop where
  store : Sound definition registry log s.store
  run : ∀ run, s.run = some run → Faithful definition registry log run

variable {result : ProjectionStore S × Progress S P}

/-- After a stretch of a faithful run the session is sound. -/
theorem sessionInv_ofResult {run : ReplayRun S P} (hrun : Faithful definition registry log run)
    (h : Sound definition registry log store)
    (hstretch : Stretch run starting now before store result) (opts : ResolvedOptions) :
    SessionInv definition registry log (.ofResult opts result) := by
  have hsound := sound_ops hrun h hstretch.ops
  obtain ⟨store', progress⟩ := result
  cases progress with
  | waiting run' =>
    refine ⟨hsound, fun run'' heq ↦ ?_⟩
    cases heq
    obtain ⟨rfl, -⟩ := hstretch.waiting run' rfl
    exact ⟨hrun.projection, hrun.policy, hrun.batchSize, hrun.folded⟩
  | ended outcome => exact ⟨hsound, fun run'' heq ↦ by simp [Session.ofResult] at heq⟩

/-- A run that has begun is faithful. -/
theorem faithful_fresh (hlog : IsLog log) (h : Sound definition registry log store)
    {opts : ResolvedOptions} {slot : ProjectionSlot S} (hpolicy : opts.poisonPolicy = .halt)
    (hbegun : Begun (.fresh definition opts runId store.active slot) slot now store result) :
    Faithful definition registry log (.fresh definition opts runId store.active slot) := by
  have hvalid := hbegun.valid
  simp only [ResolvedOptions.isValid, Bool.and_eq_true, decide_eq_true_eq] at hvalid
  refine ⟨rfl, hpolicy, hvalid.1.1.1.1.1.1.1.1.2, ?_⟩
  rcases hbegun.source with ⟨-, hblank, -⟩ | ⟨-, hslot⟩
  · have hslot : slot = definition.blank := hblank
    rw [hslot]
    exact folded_blank hlog
  · exact h.slot slot hslot

/-- **A call keeps the session sound.** -/
theorem sessionInv_step (hlog : IsLog log) (h : SessionInv definition registry log s)
    (hc : c.Halts) :
    SessionInv definition registry log (sessionStep definition registry log s c) := by
  cases c with
  | start role options runId now faults =>
    rw [sessionStep]
    split
    · exact h
    rcases startReplay_cases definition role options runId now faults s.store with
      ⟨hsame, outcome, hended, -⟩ | ⟨slot, hbegun⟩
    · have hpair : startReplay definition role options runId now faults s.store =
          (s.store, .ended outcome) := Prod.ext hsame hended
      rw [hpair]
      exact ⟨h.store, fun run heq ↦ by simp [Session.ofResult] at heq⟩
    · exact sessionInv_ofResult (faithful_fresh hlog h.store hc hbegun) h.store hbegun.stretch _
  | read size throws now faults =>
    rw [sessionStep]
    split
    · exact h
    · next run hrun =>
      have hrun := h.run run hrun
      refine sessionInv_ofResult ?_ h.store (stretch_afterRead registry throws _) _
      rw [folded]
      split
      · exact hrun
      · exact faithful_steps hlog throws ⟨hrun.projection, hrun.policy, hrun.batchSize, hrun.folded⟩
          (List.take_prefix _ _)
  | readFailed now faults =>
    rw [sessionStep]
    split
    · exact h
    next run hrun =>
    have hfaithful := h.run run hrun
    rcases readFailed_cases run now faults s.store with heq | hending
    · rw [heq]
      refine ⟨h.store, fun run' heq' ↦ ?_⟩
      cases heq'
      exact ⟨hfaithful.projection, hfaithful.policy, hfaithful.batchSize, hfaithful.folded⟩
    · exact sessionInv_ofResult hfaithful h.store hending.stretch _
  | crash => exact ⟨h.store, fun run heq ↦ by simp [sessionStep] at heq⟩
  | environment lock active => exact ⟨⟨h.store.writes, h.store.slot⟩, h.run⟩

/-! ### Completed runs -/

variable {throws : ReplayEvent P → Bool} {report : ReplayReport S}

/-- A successful answer without `untilSequence` follows an empty answer of the source. -/
theorem readLog_eq_nil_of_finished {run : ReplayRun S P} (huntil : run.opts.untilSequence = none)
    (h : (afterRead run now faults store registry throws (readLog log run size)).2 =
      .ended (.finished report)) : readLog log run size = [] := by
  by_contra hne
  rw [afterRead, if_neg (by simpa using hne)] at h
  have hextends := extends_steps registry throws { run with batches := run.batches + 1 }
    (readLog log run size)
  split at h
  · exact unfinished_halt _ report h
  · next run' heq =>
    rw [heq] at hextends
    exact unfinished_commit ((congrArg ResolvedOptions.untilSequence hextends.opts).trans huntil)
      report h
  · next run' heq => exact steps_ne_stop (by exact huntil) registry throws _ run' heq

/-- What a completed run leaves behind. -/
structure Completed (definition : ProjectionDefinition S P) (registry : UpcasterRegistry P)
    (log : List (ReplayEvent P)) (opts : ResolvedOptions) (report : ReplayReport S)
    (store : ProjectionStore S) : Prop where
  built : opts.dryRun = false → ∃ state, projectAll definition registry log = some state ∧
    store.slots definition.version =
      some ⟨state, lastSequence log, .ready, log.countP definition.consumes⟩
  reported : opts.dryRun = true → report.state = projectAll definition registry log ∧
    report.state.isSome = true

/-- **A run that finishes has read the log to its end.** -/
theorem completed_afterRead (hlog : IsLog log) {run : ReplayRun S P}
    (h : Faithful definition registry log run) (huntil : run.opts.untilSequence = none)
    (hfinished : (afterRead run now faults store registry throws (readLog log run size)).2 =
      .ended (.finished report)) :
    Completed definition registry log run.opts report
      (afterRead run now faults store registry throws (readLog log run size)).1 := by
  have hempty := readLog_eq_nil_of_finished huntil hfinished
  have hsame : run.folded registry throws (readLog log run size) = run := by
    rw [folded, hempty]
    rfl
  have hstretch :=
    @stretch_afterRead _ _ run now faults store registry throws (readLog log run size)
  rw [hsame] at hstretch
  obtain ⟨status, hreport, hslot⟩ := hstretch.finished report hfinished
  obtain ⟨hstate, happlied, hcheckpoint⟩ := h.folded.whole hlog
    ((take_eq_nil_iff.1 hempty).resolve_left (by have := h.batchSize; omega))
  constructor
  · intro hdry
    refine ⟨run.state, hstate, ?_⟩
    have hbuilt := hslot hdry
    rw [version, h.projection] at hbuilt
    rw [hbuilt, slot, hcheckpoint, happlied]
  · intro hdry
    rw [hreport, ReplayRun.report, hstate]
    simp [hdry]

/-- **A call keeps the law.** -/
theorem resumedLaw_step (hlog : IsLog log) (h : SessionInv definition registry log s)
    (hlaw : ResumedLaw definition registry log s) (hc : c.Halts) :
    ResumedLaw definition registry log (sessionStep definition registry log s c) := by
  have hnext := sessionInv_step hlog h hc
  suffices hcompleted : ∀ opts report,
      (sessionStep definition registry log s c).last = some (opts, .finished report) →
      opts.untilSequence = none →
      Completed definition registry log opts report
        (sessionStep definition registry log s c).store from
    ⟨hnext.store.writes, hnext.store.slot,
      fun opts report hlast huntil ↦ (hcompleted opts report hlast huntil).built,
      fun opts report hlast huntil ↦ (hcompleted opts report hlast huntil).reported⟩
  have hstay : ∀ opts report, s.last = some (opts, .finished report) →
      opts.untilSequence = none → Completed definition registry log opts report s.store :=
    fun opts report hlast huntil ↦
      ⟨hlaw.built opts report hlast huntil, hlaw.reported opts report hlast huntil⟩
  have hended : ∀ {opts opts' : ResolvedOptions} {report : ReplayReport S}
      {result : ProjectionStore S × Progress S P},
      (Session.ofResult opts result).last = some (opts', .finished report) →
      opts = opts' ∧ result.2 = .ended (.finished report) ∧
        (Session.ofResult opts result).store = result.1 := by
    rintro opts opts' report ⟨store, progress⟩ hlast
    cases progress with
    | waiting run => simp [Session.ofResult] at hlast
    | ended outcome =>
      simp only [Session.ofResult, Option.some.injEq, Prod.mk.injEq] at hlast
      obtain ⟨rfl, rfl⟩ := hlast
      exact ⟨rfl, rfl, rfl⟩
  intro opts report hlast huntil
  cases c with
  | start role options runId now faults =>
    rw [sessionStep] at hlast ⊢
    split at hlast
    · exact hstay opts report hlast huntil
    · obtain ⟨rfl, hfinished, -⟩ := hended hlast
      exact absurd hfinished (unfinished_startReplay huntil report)
  | read size throws now faults =>
    rw [sessionStep] at hlast ⊢
    split at hlast
    · exact hstay opts report hlast huntil
    next run hrun =>
    obtain ⟨rfl, hfinished, hstore⟩ := hended hlast
    simp only [hstore]
    exact completed_afterRead hlog (h.run run hrun) huntil hfinished
  | readFailed now faults =>
    rw [sessionStep] at hlast ⊢
    split at hlast
    · exact hstay opts report hlast huntil
    next run hrun =>
    obtain ⟨rfl, hfinished, -⟩ := hended hlast
    rw [Replay.readFailed] at hfinished
    split at hfinished
    · cases hfinished
    · exact absurd hfinished (unfinished_halt _ report)
  | crash => simp [sessionStep] at hlast
  | environment lock active => simp [sessionStep] at hlast

/-- **A dry run leaves the store alone.** -/
theorem store_of_actsDry (h : ActsDry s c) :
    (sessionStep definition registry log s c).store = s.store := by
  have hstore : ∀ (opts : ResolvedOptions) (result : ProjectionStore S × Progress S P),
      (Session.ofResult opts result).store = result.1 := by
    rintro opts ⟨store, _ | _⟩ <;> rfl
  cases c with
  | start role options runId now faults =>
    rw [sessionStep]
    split
    · rfl
    rw [hstore]
    rcases startReplay_cases definition role options runId now faults s.store with
      ⟨hsame, -⟩ | ⟨slot, hbegun⟩
    · exact hsame
    · exact eq_of_ops_dry (by exact h) hbegun.stretch.ops
  | read size throws now faults =>
    obtain ⟨run, hrun, hdry⟩ := h
    rw [sessionStep, hrun]
    simp only [hstore]
    refine eq_of_ops_dry ?_ (stretch_afterRead registry throws _).ops
    rw [(extends_folded run registry throws _).opts]
    exact hdry
  | readFailed now faults =>
    obtain ⟨run, hrun, hdry⟩ := h
    rw [sessionStep, hrun]
    simp only [hstore]
    rcases readFailed_cases run now faults s.store with heq | hending
    · rw [heq]
    · exact eq_of_ops_dry hdry hending.ops
  | crash => exact absurd h id
  | environment lock active => exact absurd h id

/-- **Resumed replays are one replay.** Along every session of a single runner on a log, under the
policy `halt`: whatever is written to the slot is the fold of the events up to its checkpoint; a run
that completes without `untilSequence` leaves the fold of the whole log, the last sequence number
and the number of consumed events; a dry run reports that fold and changes nothing. -/
theorem resumedLaw_run (hlog : IsLog log) {s : Session S P} (hs : s.Unbuilt definition.version)
    {calls : List (ReplayCall P)} (hcalls : ∀ c ∈ calls, c.Halts) :
    ResumedLaw definition registry log (run (sessionStep definition registry log) s calls) ∧
      Meets (sessionStep definition registry log)
        (fun s c ↦ ActsDry s c → (sessionStep definition registry log s c).store = s.store)
        s calls := by
  have hsound : Sound definition registry log s.store :=
    ⟨by simp [hs.writes], by simp [hs.slot]⟩
  have hinv : SessionInv definition registry log s := ⟨hsound, by simp [hs.run]⟩
  have hlaw : ResumedLaw definition registry log s :=
    ⟨hsound.writes, hsound.slot, by simp [hs.last], by simp [hs.last]⟩
  have hmeets : Meets (sessionStep definition registry log) (fun _ c ↦ c.Halts) s calls :=
    meets_of_forall_mem hcalls
  have hstep : ∀ (s : Session S P) (c : ReplayCall P),
      SessionInv definition registry log s ∧ ResumedLaw definition registry log s → c.Halts →
      SessionInv definition registry log (sessionStep definition registry log s c) ∧
        ResumedLaw definition registry log (sessionStep definition registry log s c) :=
    fun s c hs hc ↦ ⟨sessionInv_step hlog hs.1 hc, resumedLaw_step hlog hs.1 hs.2 hc⟩
  exact ⟨(run_induction hstep ⟨hinv, hlaw⟩ hmeets).2,
    meets_of_meets hstep (fun _ _ _ _ ↦ store_of_actsDry) ⟨hinv, hlaw⟩ hmeets⟩

end

/-! ### A balance in cents -/

/-- A projection that sums credits; credits of version 1 are in whole units. -/
def balanceDefinition : ProjectionDefinition ℤ ℤ where
  version := 1
  eventVersions type := if type = js "credit" then some 2 else none
  initial := 0
  apply state event := some (state + event.payload)
  validate _ := some []

/-- Version 1 of a credit is lifted to cents. -/
def balanceUpcasters : UpcasterRegistry ℤ :=
  ⟨[⟨js "credit", 1, fun payload ↦ some (payload * 100)⟩], by simp⟩

/-- Two credits, with an event of another type between them. -/
def balanceLog : List (ReplayEvent ℤ) :=
  [⟨js "a", 1, js "credit", 1, 5⟩, ⟨js "b", 3, js "note", 1, 7⟩, ⟨js "c", 4, js "credit", 2, 250⟩]

/-- A rebuild that halts at the last event, because the reducer throws, and a resume that goes
through. -/
def balanceCalls : List (ReplayCall ℤ) :=
  let fine : Faults := fun _ ↦ false
  [.start .maintainer {} (js "r1") 0 fine,
    .read 1 (fun _ ↦ false) 1 fine,
    .read 1 (fun event ↦ event.id = js "c") 2 fine,
    .start .maintainer { mode := some .resume } (js "r2") 3 fine,
    .read 0 (fun _ ↦ false) 4 fine,
    .read 0 (fun _ ↦ false) 5 fine]

theorem resumedLaw_run_balance :
    (run (sessionStep balanceDefinition balanceUpcasters balanceLog) ⟨.empty, none, none⟩
        balanceCalls).store.slots 1 = some ⟨750, 4, .ready, 2⟩ ∧
      ResumedLaw balanceDefinition balanceUpcasters balanceLog
        (run (sessionStep balanceDefinition balanceUpcasters balanceLog) ⟨.empty, none, none⟩
          balanceCalls) :=
  ⟨by decide +kernel,
    (resumedLaw_run ⟨by decide +kernel, by decide +kernel, by decide +kernel⟩ ⟨rfl, rfl, rfl, rfl⟩
      (by simp [balanceCalls, ReplayCall.Halts, ReplayOptions.resolve])).1⟩

/-- **An event of another type is not counted.** The log has three events, the completed slot says
two. -/
theorem replay_counts_consumed :
    balanceLog.Pairwise (fun a b ↦ a.sequence < b.sequence) ∧
      ((run (sessionStep balanceDefinition balanceUpcasters balanceLog) ⟨.empty, none, none⟩
        balanceCalls).store.slots 1).map (fun slot ↦ (slot.status, slot.eventsApplied)) =
          some (.ready, 2) ∧
      balanceLog.length = 3 := by
  decide +kernel

end Utix.Replay
