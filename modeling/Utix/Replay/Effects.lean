import Utix.Replay.Runner

/-!
# What a stretch does to the store

A stretch of a run makes a sequence of four kinds of operation on the store (`Op`): it takes the
lock, writes the slot of its version, moves the pointer there, gives the lock back. It writes only
while it holds the lock and the pointer is where the stretch found it; it moves the pointer only
onto the slot it has just written as ready. All of this is read off the code once, in
`stretch_afterRead`, `readFailed_cases` and `startReplay_cases`. Everything that holds along
interleaved runs follows from what one operation preserves.

The local variables that are written do not change in the course of a stretch, once the batch has
been folded in. So a stretch speaks of one `ReplayRun`.
-/

namespace Utix.Replay

open Js Relation ReplayRun

variable {S P : Type}

/-- The lock names the owner, expired or not. -/
def ProjectionStore.Owned (store : ProjectionStore S) (owner : JsString) : Prop :=
  store.lock.map ReplayLock.owner = some owner

/-- The lock is held by somebody else, and has not expired. -/
def ProjectionStore.Refuses (store : ProjectionStore S) (owner : JsString) (now : ℤ) : Prop :=
  ∃ held, store.lock = some held ∧ held.owner ≠ owner ∧ now < held.expiresAt

/-- An operation of a run on the store, in a stretch that finds the pointer as `before`. -/
inductive Op (run : ReplayRun S P) (starting : Bool) (now : ℤ) (before : Option ActivePointer) :
    ProjectionStore S → ProjectionStore S → Prop
  | acquire {store : ProjectionStore S} (hdry : run.opts.dryRun = false)
      (hfree : ¬ store.Refuses run.runId now) :
      Op run starting now before store
        { store with lock := some ⟨run.runId, now + run.opts.lockTtlMs⟩ }
  | put {store : ProjectionStore S} {status : SlotStatus} (hdry : run.opts.dryRun = false)
      (hown : store.Owned run.runId) (hactive : store.active = before)
      (hstatus : status = .ready ∨ run.commitPerBatch = true) :
      Op run starting now before store
        (store.putSlot run.isRebuild starting run.version (run.slot status))
  | activate {store : ProjectionStore S} (hdry : run.opts.dryRun = false)
      (hown : store.Owned run.runId) (hactive : store.active = before)
      (hpromote : run.opts.promote = true) (hlive : run.live = false)
      (hslot : store.slots run.version = some (run.slot .ready)) :
      Op run starting now before store
        (store.setActive ⟨run.version, run.active.map ActivePointer.version⟩)
  | release {store : ProjectionStore S} (hdry : run.opts.dryRun = false) :
      Op run starting now before store (store.releaseLock run.runId)

variable {store' : ProjectionStore S} {before : Option ActivePointer} {store : ProjectionStore S}

/-- A dry run makes no operation. -/
theorem Op.dryRun {run : ReplayRun S P} {starting : Bool} {now : ℤ}
    (h : Op run starting now before store store') : run.opts.dryRun = false := by
  cases h <;> assumption

/-- A sequence of operations. -/
abbrev Ops (run : ReplayRun S P) (starting : Bool) (now : ℤ) (before : Option ActivePointer) :
    ProjectionStore S → ProjectionStore S → Prop := ReflTransGen (Op run starting now before)

/-- A dry run makes no operation. -/
theorem eq_of_ops_dry {run : ReplayRun S P} {starting : Bool} {now : ℤ}
    (hdry : run.opts.dryRun = true) (hops : Ops run starting now before store store') :
    store' = store := by
  induction hops with
  | refl => rfl
  | tail _ hop _ =>
    have hnot := hop.dryRun
    rw [hdry] at hnot
    exact absurd hnot Bool.true_eq_false.mp

/-- A report of the run is about its slot, which is ready unless the run was a dry one. -/
def Finished (run : ReplayRun S P) (result : ProjectionStore S × Progress S P) : Prop :=
  ∀ report, result.2 = .ended (.finished report) →
    ∃ status, report = run.report status ∧
      (run.opts.dryRun = false → result.1.slots run.version = some (run.slot .ready))

/-- A stretch with which the run is over. -/
structure Ending (run : ReplayRun S P) (starting : Bool) (now : ℤ)
    (before : Option ActivePointer) (store : ProjectionStore S)
    (result : ProjectionStore S × Progress S P) : Prop where
  ops : Ops run starting now before store result.1
  ended : ∃ outcome, result.2 = .ended outcome
  finished : Finished run result

/-- What the store is like when the run waits: the pointer is where it was, and so are the slots,
unless the run has written its own as building. -/
structure Waiting (run : ReplayRun S P) (store after : ProjectionStore S) : Prop where
  owned : run.opts.dryRun = true ∨ after.Owned run.runId
  active : after.active = store.active
  slots : after.slots = store.slots ∨
    run.commitPerBatch = true ∧
      after.slots = Function.update store.slots run.version (some (run.slot .building))

/-- A stretch after which the run waits or is over. -/
structure Stretch (run : ReplayRun S P) (starting : Bool) (now : ℤ)
    (before : Option ActivePointer) (store : ProjectionStore S)
    (result : ProjectionStore S × Progress S P) : Prop where
  ops : Ops run starting now before store result.1
  waiting : ∀ run', result.2 = .waiting run' →
    run' = { run with attempt := 0 } ∧ Waiting run store result.1
  finished : Finished run result

/-! ### The lock -/

/-- The lock is refused while another holds it, and taken otherwise. -/
theorem acquireLock_cases (store : ProjectionStore S) (owner : JsString) (now ttl : ℤ) :
    (store.Refuses owner now ∧ store.acquireLock owner now ttl = (false, store)) ∨
      (¬ store.Refuses owner now ∧
        store.acquireLock owner now ttl =
          (true, { store with lock := some ⟨owner, now + ttl⟩ })) := by
  rw [ProjectionStore.acquireLock]
  rcases hlock : store.lock with - | held
  · refine .inr ⟨?_, rfl⟩
    rintro ⟨held, hheld, -⟩
    rw [hlock] at hheld
    cases hheld
  · by_cases hrefuse : held.owner ≠ owner ∧ now < held.expiresAt
    · exact .inl ⟨⟨held, hlock, hrefuse⟩, if_pos hrefuse⟩
    refine .inr ⟨?_, if_neg hrefuse⟩
    rintro ⟨held', hheld, hrest⟩
    rw [hlock] at hheld
    cases hheld
    exact hrefuse hrest

@[simp] theorem releaseLock_slots (store : ProjectionStore S) (owner : JsString) :
    (store.releaseLock owner).slots = store.slots := by
  rw [ProjectionStore.releaseLock]
  split <;> rfl

variable {result : ProjectionStore S × Progress S P}

section Stretches

variable {run : ReplayRun S P} {starting : Bool} {now : ℤ} {faults : Faults}
  {before : Option ActivePointer} {store : ProjectionStore S}

theorem Ending.not_waiting (h : Ending run starting now before store result)
    (run' : ReplayRun S P) : result.2 ≠ .waiting run' := by
  obtain ⟨outcome, hended⟩ := h.ended
  rw [hended]
  simp

theorem Ending.stretch (h : Ending run starting now before store result) :
    Stretch run starting now before store result :=
  ⟨h.ops, fun run' hrun ↦ absurd hrun (h.not_waiting run'), h.finished⟩

/-- Earlier operations can be put before an ending. -/
theorem Ending.of_ops (hops : Ops run starting now before store store')
    (h : Ending run starting now before store' result) :
    Ending run starting now before store result :=
  ⟨hops.trans h.ops, h.ended, h.finished⟩

/-- So can operations on the lock before a stretch. -/
theorem Stretch.of_lock (hops : Ops run starting now before store store')
    (hslots : store'.slots = store.slots) (hactive : store'.active = store.active)
    (h : Stretch run starting now before store' result) :
    Stretch run starting now before store result := by
  refine ⟨hops.trans h.ops, fun run' hrun ↦ ?_, h.finished⟩
  obtain ⟨heq, hown, hact, hwrote⟩ := h.waiting run' hrun
  exact ⟨heq, hown, hact.trans hactive, by rwa [hslots] at hwrote⟩

/-- What `ownsLock` answers: it throws; it is refused; or the run goes on, with the lock unless it
is a dry run. -/
theorem ownsLock_cases (site : CallSite) :
    run.ownsLock now faults store site = none ∨
      run.ownsLock now faults store site = some (false, store) ∨
      ∃ store', run.ownsLock now faults store site = some (true, store') ∧
        Ops run starting now before store store' ∧ store'.slots = store.slots ∧
        store'.active = store.active ∧ (run.opts.dryRun = true ∨ store'.Owned run.runId) := by
  rw [ownsLock]
  by_cases hdry : run.opts.dryRun = true
  · exact .inr (.inr ⟨store, if_pos hdry, .refl, rfl, rfl, .inl hdry⟩)
  rw [if_neg hdry]
  split
  · exact .inl rfl
  rcases acquireLock_cases store run.runId now run.opts.lockTtlMs with ⟨-, heq⟩ | ⟨hfree, heq⟩
  · rw [heq]
    exact .inr (.inl rfl)
  · rw [heq]
    exact .inr (.inr ⟨_, rfl, .single (.acquire (by simpa using hdry) hfree), rfl, rfl, .inr rfl⟩)

/-- A run that ends gives the lock back. -/
theorem ending_finally {outcome : Outcome S}
    (h : ∀ report, outcome = .finished report → ∃ status, report = run.report status ∧
      (run.opts.dryRun = false → store.slots run.version = some (run.slot .ready))) :
    Ending run starting now before store (run.finally faults store outcome) := by
  rw [ReplayRun.finally]
  split
  · exact ⟨.refl, ⟨_, rfl⟩, fun report hreport ↦ h report (by simpa using hreport)⟩
  next hdry =>
  split
  · exact ⟨.refl, ⟨_, rfl⟩, fun report hreport ↦ by simp at hreport⟩
  · refine ⟨.single (.release (by simpa using hdry)), ⟨_, rfl⟩, fun report hreport ↦ ?_⟩
    obtain ⟨status, hstatus, hslot⟩ := h report (by simpa using hreport)
    exact ⟨status, hstatus, by simpa using hslot⟩

theorem ending_threw :
    Ending run starting now before store (run.finally faults store .threw) :=
  ending_finally (by simp)

theorem ending_failed (code : ReplayErrorCode) (checkpoint : ℚ) :
    Ending run starting now before store (run.finally faults store (.failed code checkpoint)) :=
  ending_finally (by simp)

/-- A run that has lost the lock ends without writing. -/
theorem ending_lostLock : Ending run starting now before store (run.lostLock faults store) := by
  rw [lostLock]
  split
  · exact ending_threw
  · exact ending_failed _ _

/-- A slot write throws, or it is an operation. -/
theorem writeSlot_cases {status : SlotStatus} (site : CallSite)
    (hdry : run.opts.dryRun = false) (hown : store.Owned run.runId)
    (hactive : store.active = before)
    (hstatus : status = .ready ∨ run.commitPerBatch = true) :
    run.writeSlot starting faults store status site = none ∨
      ∃ store', run.writeSlot starting faults store status site = some store' ∧
        Ops run starting now before store store' ∧ store'.Owned run.runId ∧
        store'.active = store.active ∧
        store'.slots = Function.update store.slots run.version (some (run.slot status)) := by
  rw [writeSlot]
  split
  · exact .inl rfl
  · exact .inr ⟨_, rfl, .single (.put hdry hown hactive hstatus), hown, rfl, rfl⟩

theorem dryRun_of_commitPerBatch (h : run.commitPerBatch = true) : run.opts.dryRun = false := by
  rw [commitPerBatch, Bool.and_eq_true] at h
  simpa using h.1

variable (hactive : store.active = before)
include hactive

/-- A run that halts may write what it has folded in, and ends. -/
theorem ending_halt (code : ReplayErrorCode) :
    Ending run starting now before store (run.halt starting now faults store code) := by
  rw [halt]
  split
  · next hcommit =>
    have hdry := dryRun_of_commitPerBatch hcommit
    rcases @ownsLock_cases _ _ run starting now faults before store .haltCheck with
      heq | heq | ⟨store', heq, hops, -, hsame, hown⟩ <;> rw [heq]
    · exact ending_threw
    · exact ending_failed _ _
    have hown' : store'.Owned run.runId := hown.resolve_left (by simp [hdry])
    refine Ending.of_ops hops ?_
    rcases @writeSlot_cases _ _ run starting now faults before store' .failed .haltWrite hdry
      hown' (hsame.trans hactive) (.inr hcommit) with heq | ⟨store'', heq, hops', -⟩
    · simp only [heq]
      exact ending_threw
    · simp only [heq]
      exact Ending.of_ops hops' (ending_failed _ _)
  · exact ending_failed _ _

/-- A run that comes to its end writes its slot as ready, and may move the pointer there. -/
theorem ending_finish :
    Ending run starting now before store (run.finish starting now faults store) := by
  rw [finish]
  rcases @ownsLock_cases _ _ run starting now faults before store .lastCheck with
    heq | heq | ⟨store', heq, hops, -, hsame, hown⟩ <;> rw [heq]
  · exact ending_threw
  · exact ending_lostLock
  refine Ending.of_ops hops ?_
  simp only
  split
  · exact ending_threw
  split
  · exact ending_halt (hsame.trans hactive) _
  split
  · next hdry =>
    refine ending_finally fun report hreport ↦ ?_
    exact ⟨.dryRun, (Outcome.finished.inj hreport).symm, fun h ↦ by simp [hdry] at h⟩
  · next hdry =>
    have hdry' : run.opts.dryRun = false := by simpa using hdry
    have hown' : store'.Owned run.runId := hown.resolve_left hdry
    rcases @writeSlot_cases _ _ run starting now faults before store' .ready .readyWrite hdry' hown'
      (hsame.trans hactive) (.inl rfl) with heq | ⟨store'', heq, hops', hown'', hsame', hslots⟩
    · simp only [heq]
      exact ending_threw
    have hslot : store''.slots run.version = some (run.slot .ready) := by
      rw [hslots, Function.update_self]
    simp only [heq]
    refine Ending.of_ops hops' ?_
    split
    · next hpromote =>
      rw [Bool.and_eq_true] at hpromote
      rw [promote]
      split
      · exact ending_threw
      · refine Ending.of_ops (.single (.activate hdry' hown''
          (hsame'.trans (hsame.trans hactive)) hpromote.1 (by simpa using hpromote.2) hslot))
          (ending_finally fun report hreport ↦ ?_)
        exact ⟨.promoted, (Outcome.finished.inj hreport).symm, fun _ ↦ hslot⟩
    · refine ending_finally fun report hreport ↦ ?_
      exact ⟨.ready, (Outcome.finished.inj hreport).symm, fun _ ↦ hslot⟩

/-- The loop asks for the next batch, or ends the run. -/
theorem stretch_loop :
    Stretch run starting now before store (run.loop starting now faults store) := by
  rw [loop]
  rcases @ownsLock_cases _ _ run starting now faults before store .loopCheck with
    heq | heq | ⟨store', heq, hops, hslots, hsame, hown⟩ <;> rw [heq]
  · exact ending_threw.stretch
  · exact ending_lostLock.stretch
  simp only
  split
  · exact (Ending.of_ops hops (ending_finish (hsame.trans hactive))).stretch
  · refine ⟨hops, fun run' hrun ↦ ?_, fun report hreport ↦ by simp at hreport⟩
    cases hrun
    exact ⟨rfl, hown, hsame, .inl hslots⟩

/-- The run writes its slot as building, and goes on. -/
theorem stretch_building {site : CallSite} {result : ProjectionStore S → ProjectionStore S ×
    Progress S P} (hcommit : run.commitPerBatch = true) (hown : store.Owned run.runId)
    (h : ∀ store', store'.active = before →
      Stretch run starting now before store' (result store')) :
    Stretch run starting now before store
      (match run.writeSlot starting faults store .building site with
      | none => run.finally faults store .threw
      | some store' => result store') := by
  have hdry := dryRun_of_commitPerBatch hcommit
  rcases @writeSlot_cases _ _ run starting now faults before store .building site hdry hown hactive
    (.inr hcommit) with heq | ⟨store', heq, hops, -, hsame, hslots⟩ <;> rw [heq]
  · exact ending_threw.stretch
  · have htail := h store' (hsame.trans hactive)
    refine ⟨hops.trans htail.ops, fun run' hrun ↦ ?_, htail.finished⟩
    obtain ⟨heq, hown, hact, hwrote⟩ := htail.waiting run' hrun
    refine ⟨heq, hown, hact.trans hsame, .inr ⟨hcommit, ?_⟩⟩
    rcases hwrote with hsame | ⟨-, hwrote⟩
    · rw [hsame, hslots]
    · rw [hwrote, hslots, Function.update_idem]

/-- After a batch a run may write its slot. -/
theorem stretch_commit (done : Bool) :
    Stretch run starting now before store (run.commit starting now faults store done) := by
  rw [commit]
  rcases @ownsLock_cases _ _ run starting now faults before store .batchCheck with
    heq | heq | ⟨store', heq, hops, hslots, hsame, hown⟩ <;> rw [heq]
  · exact ending_threw.stretch
  · exact ending_lostLock.stretch
  have hrest : ∀ store'' : ProjectionStore S, store''.active = before →
      Stretch run starting now before store''
        (if done then run.finish starting now faults store''
        else run.loop starting now faults store'') := fun store'' hactive' ↦ by
    split
    · exact (ending_finish hactive').stretch
    · exact stretch_loop hactive'
  refine Stretch.of_lock hops hslots hsame ?_
  simp only
  by_cases hcommit : run.commitPerBatch = true
  · have hdry := dryRun_of_commitPerBatch hcommit
    rw [if_pos hcommit]
    exact stretch_building (hsame.trans hactive) hcommit (hown.resolve_left (by simp [hdry])) hrest
  · rw [if_neg hcommit]
    exact hrest store' (hsame.trans hactive)

/-- A rebuild that writes its slot has written it as building when it first waits. -/
theorem stretch_begin :
    Stretch run true now before store (run.begin now faults store) ∧
    ((run.commitPerBatch && run.isRebuild) = true →
      ∀ run', (run.begin now faults store).2 = .waiting run' →
        (run.begin now faults store).1.slots =
          Function.update store.slots run.version (some (run.slot .building))) := by
  rw [begin]
  rcases @ownsLock_cases _ _ run true now faults before store .firstCheck with
    heq | heq | ⟨store', heq, hops, hslots, hsame, hown⟩ <;> rw [heq]
  · have hend := @ending_threw _ _ run true now faults before store
    exact ⟨hend.stretch, fun _ run' hrun ↦ absurd hrun (hend.not_waiting run')⟩
  · have hend := @ending_lostLock _ _ run true now faults before store
    exact ⟨hend.stretch, fun _ run' hrun ↦ absurd hrun (hend.not_waiting run')⟩
  simp only
  by_cases hcommit : (run.commitPerBatch && run.isRebuild) = true
  · have hcommit' := (Bool.and_eq_true _ _ ▸ hcommit).1
    have hdry := dryRun_of_commitPerBatch hcommit'
    have hown' := hown.resolve_left (by simp [hdry])
    rw [if_pos hcommit]
    refine ⟨Stretch.of_lock hops hslots hsame
      (stretch_building (hsame.trans hactive) hcommit' hown' fun _ ↦ stretch_loop),
      fun _ run' hrun ↦ ?_⟩
    rcases @writeSlot_cases _ _ run true now faults before store' .building .firstWrite hdry hown'
      (hsame.trans hactive) (.inr hcommit') with heq | ⟨store'', heq, -, -, hsame', hwrote⟩
    · simp only [heq] at hrun
      exact absurd hrun ((@ending_threw _ _ run true now faults before store').not_waiting run')
    simp only [heq] at hrun ⊢
    obtain ⟨-, -, -, hkept | ⟨-, hkept⟩⟩ :=
      (stretch_loop (hsame'.trans (hsame.trans hactive))).waiting run' hrun
    · rw [hkept, hwrote, hslots]
    · rw [hkept, hwrote, hslots, Function.update_idem]
  · rw [if_neg hcommit]
    exact ⟨Stretch.of_lock hops hslots hsame (stretch_loop (hsame.trans hactive)),
      fun h ↦ absurd h hcommit⟩

end Stretches

/-! ### The three stretches -/

/-- The run with a batch folded in, whether or not the batch was gone through to its end. -/
def EventResult.run : EventResult S P → ReplayRun S P
  | .next run => run
  | .stop run => run
  | .halted run _ => run

/-- The local variables that `afterRead` writes. -/
def ReplayRun.folded (run : ReplayRun S P) (registry : UpcasterRegistry P)
    (throws : ReplayEvent P → Bool) (batch : List (ReplayEvent P)) : ReplayRun S P :=
  if batch.isEmpty then run
  else (ReplayRun.steps registry throws { run with batches := run.batches + 1 } batch).run

/-- The run with more events gone through: it is the same run, and its checkpoint does not fall. -/
structure Extends (run run' : ReplayRun S P) : Prop where
  definition : run'.definition = run.definition
  opts : run'.opts = run.opts
  runId : run'.runId = run.runId
  active : run'.active = run.active
  checkpoint : run.checkpoint ≤ run'.checkpoint

section

variable (run : ReplayRun S P)

theorem Extends.refl : Extends run run := ⟨rfl, rfl, rfl, rfl, le_rfl⟩

theorem Extends.trans {run run' run'' : ReplayRun S P} (h : Extends run run')
    (h' : Extends run' run'') : Extends run run'' :=
  ⟨h'.definition.trans h.definition, h'.opts.trans h.opts, h'.runId.trans h.runId,
    h'.active.trans h.active, h.checkpoint.trans h'.checkpoint⟩

theorem extends_poison {event : ReplayEvent P} (h : run.checkpoint ≤ event.sequence) :
    Extends run (run.poison event).run := by
  rw [poison]
  split
  · exact .refl run
  simp only
  split
  · exact ⟨rfl, rfl, rfl, rfl, le_rfl⟩
  · exact ⟨rfl, rfl, rfl, rfl, h⟩

section

variable (registry : UpcasterRegistry P) (throws : ReplayEvent P → Bool)

/-- An event moves the checkpoint forward, and nothing else that a stretch speaks of. -/
theorem extends_step (event : ReplayEvent P) :
    Extends run (run.step registry throws event).run := by
  rw [step]
  split
  · exact .refl run
  split
  · exact .refl run
  next horder =>
    have hle : run.checkpoint ≤ event.sequence := (not_le.1 (not_or.1 horder).2).le
    simp only
    split
    · exact ⟨rfl, rfl, rfl, rfl, hle⟩
    split
    · exact ⟨rfl, rfl, rfl, rfl, le_rfl⟩
    · refine .trans ?_ (extends_poison _ (by exact hle))
      exact ⟨rfl, rfl, rfl, rfl, le_rfl⟩
    split
    · refine .trans ?_ (extends_poison _ (by exact hle))
      exact ⟨rfl, rfl, rfl, rfl, le_rfl⟩
    · exact ⟨rfl, rfl, rfl, rfl, hle⟩

theorem extends_steps (run : ReplayRun S P) (batch : List (ReplayEvent P)) :
    Extends run (steps registry throws run batch).run := by
  induction batch generalizing run with
  | nil => exact .refl run
  | cons event batch ih =>
    have hstep := extends_step run registry throws event
    rw [steps]
    split
    · next run' heq =>
      rw [heq] at hstep
      exact hstep.trans (ih run')
    · exact hstep

/-- So does a whole batch. -/
theorem extends_folded (batch : List (ReplayEvent P)) :
    Extends run (run.folded registry throws batch) := by
  rw [folded]
  split
  · exact .refl run
  · refine .trans ?_ (extends_steps registry throws _ batch)
    exact ⟨rfl, rfl, rfl, rfl, le_rfl⟩

end

end

/-- How a run begins: what it starts from, and its first stretch. -/
structure Begun (run : ReplayRun S P) (slot : ProjectionSlot S) (now : ℤ)
    (store : ProjectionStore S) (result : ProjectionStore S × Progress S P) : Prop where
  valid : run.opts.isValid run.version = true
  stretch : Stretch run true now store.active store result
  source : run.isRebuild = true ∧ slot = run.definition.blank ∧
      (run.opts.dryRun = false → run.live = false) ∨
    run.isRebuild = false ∧ store.slots run.version = some slot
  building : (run.commitPerBatch && run.isRebuild) = true →
    ∀ run', result.2 = .waiting run' → result.1.slots =
      Function.update store.slots run.version (some (run.slot .building))

/-- The store is left alone and the run, if there ever was one, is over without a report. -/
def Refused (store : ProjectionStore S) (result : ProjectionStore S × Progress S P) : Prop :=
  result.1 = store ∧ ∃ outcome, result.2 = .ended outcome ∧ ∀ report, outcome ≠ .finished report

section

variable {run : ReplayRun S P} {now : ℤ} {faults : Faults} {store : ProjectionStore S}

/-- **What a run does with a batch it was given.** -/
theorem stretch_afterRead (registry : UpcasterRegistry P) (throws : ReplayEvent P → Bool)
    (batch : List (ReplayEvent P)) :
    Stretch (run.folded registry throws batch) false now store.active store
      (afterRead run now faults store registry throws batch) := by
  rw [afterRead, folded]
  split
  · exact (ending_finish rfl).stretch
  split
  · next heq => rw [heq]; exact (ending_halt rfl _).stretch
  · next heq => rw [heq]; exact stretch_commit rfl _
  · next heq => rw [heq]; exact stretch_commit rfl _

/-- **What a run does when its source throws**: it waits for another try, or ends. -/
theorem readFailed_cases (run : ReplayRun S P) (now : ℤ) (faults : Faults)
    (store : ProjectionStore S) :
    readFailed run now faults store =
        (store, .waiting { run with attempt := run.attempt + 1, retries := run.retries + 1 }) ∨
      Ending run false now store.active store (readFailed run now faults store) := by
  rw [readFailed]
  split
  · exact .inl rfl
  · exact .inr (ending_halt rfl _)

theorem enter_cases (run : ReplayRun S P) {slot : ProjectionSlot S}
    (hvalid : run.opts.isValid run.version = true)
    (hsource : run.isRebuild = true ∧ slot = run.definition.blank ∧
        (run.opts.dryRun = false → run.live = false) ∨
      run.isRebuild = false ∧ store.slots run.version = some slot) :
    Refused store (startReplay.enter now faults store run) ∨
      Begun run slot now store (startReplay.enter now faults store run) := by
  rw [startReplay.enter]
  split
  · exact .inr ⟨hvalid, (stretch_begin rfl).1, hsource, (stretch_begin rfl).2⟩
  next hdry =>
  split
  · exact .inl ⟨rfl, _, rfl, by simp⟩
  rcases acquireLock_cases store run.runId now run.opts.lockTtlMs with ⟨-, heq⟩ | ⟨hfree, heq⟩
  · rw [heq]
    exact .inl ⟨rfl, _, rfl, by simp⟩
  rw [heq]
  have hop : Op run true now store.active store
    { store with lock := some ⟨run.runId, now + run.opts.lockTtlMs⟩ } :=
    .acquire (by simpa using hdry) hfree
  have hbegin := @stretch_begin _ _ run now faults store.active
    { store with lock := some ⟨run.runId, now + run.opts.lockTtlMs⟩ } rfl
  exact .inr ⟨hvalid, Stretch.of_lock (.single hop) rfl rfl hbegin.1, hsource, hbegin.2⟩

/-- **How a replay starts**: it is refused and the store is left alone; or there is a run, from the
blank state or from the slot. -/
theorem startReplay_cases (definition : ProjectionDefinition S P) (role : Workers.Role)
    (options : ReplayOptions) (runId : JsString) (now : ℤ) (faults : Faults)
    (store : ProjectionStore S) :
    Refused store (startReplay definition role options runId now faults store) ∨
      ∃ slot, Begun (.fresh definition options.resolve runId store.active slot) slot now store
        (startReplay definition role options runId now faults store) := by
  rw [startReplay]
  split
  · exact .inl ⟨rfl, _, rfl, by simp⟩
  have hvalid : options.resolve.isValid definition.version = true := by
    next hnot => simpa using hnot
  split
  · exact .inl ⟨rfl, _, rfl, by simp⟩
  split
  · exact .inl ⟨rfl, _, rfl, by simp⟩
  split
  · exact .inl ⟨rfl, _, rfl, by simp⟩
  next hlive =>
  cases hmode : options.resolve.mode with
  | rebuild =>
    simp only
    refine (enter_cases (.fresh definition options.resolve runId store.active definition.blank)
      hvalid (.inl ⟨by simp [isRebuild, fresh, hmode], rfl, fun hdry ↦ ?_⟩)).imp id fun h ↦ ⟨_, h⟩
    by_contra hnot
    refine hlive ⟨?_, hmode, hdry⟩
    simpa [live, fresh, version] using hnot
  | resume =>
    simp only
    split
    · exact .inl ⟨rfl, _, rfl, by simp⟩
    split
    · exact .inl ⟨rfl, _, rfl, by simp⟩
    next slot hslot =>
    exact (enter_cases (.fresh definition options.resolve runId store.active slot) hvalid
      (.inr ⟨by simp [isRebuild, fresh, hmode], hslot⟩)).imp id
      fun h ↦ ⟨_, h⟩

end

end Utix.Replay
